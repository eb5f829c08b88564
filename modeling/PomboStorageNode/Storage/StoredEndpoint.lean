import PomboStorageNode.Storage.PurgeEndpoint
import PomboStorageNode.Storage.StoragePlugin

/-!
# The stored endpoint

A sender that cannot read a stream may ask whether its messages were stored. The handler reads the
keys of the rows at all targets at once, in the buckets around the whole list of targets, and
answers from the keys when the signer may read the stream or is the publisher of every row at the
target. Otherwise it reads the rows of the target itself, in the buckets around that target only,
and recovers who signed them.

The fast path takes the publisher of a row for its signer. The validator lets an ERC-1271 message
through when it cannot ask the contract, and then the publisher is whatever the message says; the
signer of a request who is named so is told that a row exists which somebody else wrote
(`disguised_row_answered_present`). `answers_entitled_iff` is about the runs in which no such row
is stored and the placement of the rows is in order: there, the two lookups find the same rows, and
what the answers disclose depends only on the rows whose buckets are not in the bucket table yet.
-/

set_option autoImplicit false

namespace PomboStorageNode.Storage.StoredEndpoint

open Library Utils Tables BucketManager SignedRequest PomboGates IngestValidator
open PurgeEndpoint (RawTarget PurgeTarget targetToLine StoredRow storedRowOf rowsAt Database
  streamPart? getMessages HttpRequest AdmittedRequest Database.execute_eq_some)

/-! ### Access -/

/-- How the lookups of `canRead` end; `none` is a lookup that failed. -/
structure AccessLookups where
  getGate : String → Option (Option GateInfo)
  isModerator : EthereumAddress → EthereumAddress → Option Bool
  hasAccess : EthereumAddress → EthereumAddress → Option Bool
  isPublicSubscribe : String → Option Bool
  hasSubscribe : String → EthereumAddress → Option Bool

/-- `canRead`. -/
def canRead (lookups : AccessLookups) (streamId : String) (user : EthereumAddress) :
    Option Bool :=
  match lookups.getGate streamId with
  | none => none
  | some (some gate) =>
    if user = gate.owner then some true
    else match lookups.isModerator gate.address user with
      | none => none
      | some true => some true
      | some false => lookups.hasAccess gate.address user
  | some none =>
    match lookups.isPublicSubscribe streamId with
    | none => none
    | some true => some true
    | some false => lookups.hasSubscribe streamId user

/-- Whether the handler takes the signer for a reader; `none` when it refuses to answer. -/
def treatedAsReader (lookups : AccessLookups) (gates : PomboGates.State) (streamId : String)
    (signer : EthereumAddress) : Option Bool :=
  match canRead lookups streamId signer with
  | some granted => some granted
  | none => if wasLastSeenPublic gates streamId then some true else none

/-! ### The rows of the targets -/

/-- `MAX_TARGETS`. -/
def maxTargets : ℕ := 100

/-- `StoredResult`. -/
inductive StoredResult
  | present
  | absent
  deriving DecidableEq

/-- `isTarget`, the same as for a purge. -/
def isTarget (value : RawTarget) : Option PurgeTarget := PurgeEndpoint.isTarget value

/-- The targets of a body: a list of one to a hundred of them. -/
def targetsOf (targets : Option (List RawTarget)) : Option (List PurgeTarget) := do
  let values ← targets
  if values.length = 0 ∨ maxTargets < values.length then none else values.mapM isTarget

/-- The signer of the message in a row, if the payload can be read and the signer recovered. -/
def messageSigner (sdk : Sdk) (payload : Option (List UInt8)) : Option EthereumAddress :=
  (payload.bind sdk.convertBytesToStreamMessage).bind (getMessageSigner sdk)

/-- `signedBy`. -/
def signedBy (sdk : Sdk) (rows : List StoredRow) (signer : EthereumAddress) : Bool :=
  0 < rows.length ∧ rows.all (fun row ↦ messageSigner sdk row.payload = some signer) = true

/-- `StoredRowKey`. -/
structure StoredRowKey where
  timestamp : ℤ
  sequenceNo : SequenceNumber
  publisherId : String
  deriving DecidableEq

/-- A key as `getRowKeys` returns it. -/
def storedRowKeyOf (row : DataRow) : StoredRowKey where
  timestamp := row.1.timestamp
  sequenceNo := row.1.sequenceNo
  publisherId := row.1.publisherId

/-- The rows that `getRowKeys` finds in the tables. -/
def rowsAtTimestamps (options : BucketManagerOptions) (now : ℤ) (buckets : BucketTable)
    (data : StreamData) (streamPart : StreamPart) (timestamps : List ℤ) : List DataRow :=
  match timestamps.min?, timestamps.max? with
  | some first, some last =>
    match bucketIdsInRange options now buckets streamPart (first - bucketLookbackMs) last with
    | .ok bucketIds =>
      if bucketIds.length = 0 then []
      else data.select streamPart bucketIds fun key ↦ key.timestamp ∈ timestamps
    | .error _ => []
  | _, _ => []

/-- `getRowKeys`: the lookup of the buckets and the query, either of which can fail. -/
def getRowKeys (options : BucketManagerOptions) (now : ℤ) (database : Database)
    (streamPart : Option StreamPart) (timestamps : List ℤ) :
    Option (List StoredRowKey) × Database :=
  match database.execute with
  | none => (none, database)
  | some afterLookup =>
    match streamPart with
    | none => (some [], afterLookup)
    | some part =>
      match afterLookup.execute with
      | none => (none, afterLookup)
      | some afterQuery =>
        (some ((rowsAtTimestamps options now database.buckets database.data part
          timestamps).map storedRowKeyOf), afterQuery)

/-! ### The handler -/

/-- What stays the same during one request. -/
structure StoredRequest where
  options : BucketManagerOptions
  now : ℤ
  sdk : Sdk
  streamPart : Option StreamPart
  signer : EthereumAddress
  canRead : Bool

/-- The publishers of the rows at a target, in lower case. -/
def publishersAt (keys : List StoredRowKey) (target : PurgeTarget) : List String :=
  (keys.filter fun key ↦ key.timestamp = target.timestamp ∧
    key.sequenceNo.val = target.sequenceNumber).map fun key ↦ toLowerCase key.publisherId

/-- One round of the loop over the targets; the result is `none` when a statement failed. -/
def storedTarget (request : StoredRequest) (keys : List StoredRowKey) (database : Database)
    (target : PurgeTarget) : Option StoredResult × Database :=
  let publishers := publishersAt keys target
  if 0 < publishers.length then
    if request.canRead = true ∨ publishers.all (fun publisher ↦
        publisher = toLowerCase request.signer.text) = true then
      (some .present, database)
    else match getMessages request.options request.now database request.streamPart target with
      | (none, after) => (none, after)
      | (some rows, after) =>
        (some (if signedBy request.sdk rows request.signer then .present else .absent), after)
  else (some .absent, database)

/-- The loop over the targets. -/
def storedTargets (request : StoredRequest) (keys : List StoredRowKey) :
    Database → List PurgeTarget → Option (List (PurgeTarget × StoredResult))
  | _, [] => some []
  | database, target :: targets =>
    match storedTarget request keys database target with
    | (none, _) => none
    | (some result, after) =>
      (storedTargets request keys after targets).map fun results ↦ (target, result) :: results

/-- What the handler is created with: the host functions of the verifier, the client, the lookups on
the chain and the options of the bucket manager. -/
structure Endpoint where
  host : Host
  sdk : Sdk
  lookups : AccessLookups
  options : BucketManagerOptions

/-- What the handler answers: a status with an error, the results, or a rejected promise. -/
inductive StoredResponse
  | status (code : ℕ) (error : String)
  | results (results : List (PurgeTarget × StoredResult))
  | failed

/-- The checks of the handler in front of the lookups, and the verifier after them. -/
def admitRequest (endpoint : Endpoint) (verifier : SignedRequestVerifier) (request : HttpRequest) :
    Except StoredResponse AdmittedRequest × SignedRequestVerifier :=
  match request.partition with
  | none => (.error (.status 400
      ("Path parameter \"partition\" not a number: " ++ request.partitionText)), verifier)
  | some partition =>
    match targetsOf request.targets with
    | none => (.error (.status 400
        "Body must carry 1-100 targets of \x7btimestamp, sequenceNumber\x7d"), verifier)
    | some targets =>
      match verify endpoint.host verifier ⟨request.now, request.envelope, "stored",
          request.streamId, partition,
          targets.map fun target ↦ targetToLine endpoint.host.numberToString
            (.finite target.timestamp) (.finite target.sequenceNumber)⟩ with
      | (.error message, after) => (.error (.status 401 message), after)
      | (.ok signer, after) => (.ok ⟨partition, targets, signer⟩, after)

/-- The fixed data of the loop for an admitted request. -/
def storedRequestOf (endpoint : Endpoint) (request : HttpRequest) (admitted : AdmittedRequest)
    (canRead : Bool) : StoredRequest where
  options := endpoint.options
  now := request.now
  sdk := endpoint.sdk
  streamPart := streamPart? request.streamId admitted.partition
  signer := admitted.signer
  canRead := canRead

/-- The handler that `createHandler` makes. -/
def handle (endpoint : Endpoint) (gates : PomboGates.State) (verifier : SignedRequestVerifier)
    (database : Database) (request : HttpRequest) : StoredResponse × SignedRequestVerifier :=
  match admitRequest endpoint verifier request with
  | (.error response, after) => (response, after)
  | (.ok admitted, after) =>
    match treatedAsReader endpoint.lookups gates request.streamId admitted.signer with
    | none => (.status 503 "Cannot verify access right now", after)
    | some canRead =>
      let stored := storedRequestOf endpoint request admitted canRead
      match getRowKeys stored.options stored.now database stored.streamPart
          (admitted.targets.map PurgeTarget.timestamp) with
      | (none, _) => (.failed, after)
      | (some keys, queried) =>
        match storedTargets stored keys queried admitted.targets with
        | none => (.failed, after)
        | some results => (.results results, after)

/-! ### What the answers disclose -/

/-- The row is of the stream part and at the target. -/
def AtTarget (streamPart : Option StreamPart) (target : PurgeTarget) (row : DataRow) : Prop :=
  streamPart = some row.1.streamPart ∧ row.1.timestamp = target.timestamp ∧
    row.1.sequenceNo.val = target.sequenceNumber

/-- The rows that `getRowKeys` finds. -/
def keyRows (request : StoredRequest) (database : Database) (timestamps : List ℤ) :
    List DataRow :=
  match request.streamPart with
  | some part => rowsAtTimestamps request.options request.now database.buckets database.data part
      timestamps
  | none => []

/-- The rows that `getMessages` finds. -/
def messageRows (request : StoredRequest) (database : Database) (target : PurgeTarget) :
    List DataRow :=
  match request.streamPart with
  | some part => rowsAt request.options request.now database.buckets database.data part target
  | none => []

/-- The message in the row was signed by the signer of the request. -/
def Signed (request : StoredRequest) (row : DataRow) : Prop :=
  messageSigner request.sdk row.2.payload = some request.signer

/-- What makes the loop answer that a target is present. -/
def Disclosed (request : StoredRequest) (database : Database) (timestamps : List ℤ)
    (target : PurgeTarget) : Prop :=
  (∃ row ∈ keyRows request database timestamps, AtTarget request.streamPart target row) ∧
    (request.canRead = true ∨
      (∀ row ∈ keyRows request database timestamps, AtTarget request.streamPart target row →
        toLowerCase row.1.publisherId = toLowerCase request.signer.text) ∨
      (messageRows request database target ≠ [] ∧
        ∀ row ∈ messageRows request database target, Signed request row))

/-- The tables are the same, whatever the statements still allowed. -/
structure SameTables (database after : Database) : Prop where
  buckets : after.buckets = database.buckets
  data : after.data = database.data

theorem SameTables.keyRows {database after : Database} (hsame : SameTables database after)
    (request : StoredRequest) (timestamps : List ℤ) :
    keyRows request after timestamps = keyRows request database timestamps := by
  unfold StoredEndpoint.keyRows
  rw [hsame.buckets, hsame.data]

theorem SameTables.messageRows {database after : Database} (hsame : SameTables database after)
    (request : StoredRequest) (target : PurgeTarget) :
    messageRows request after target = messageRows request database target := by
  unfold StoredEndpoint.messageRows
  rw [hsame.buckets, hsame.data]

/-- The bucket of the row is among those that a lookup over the range finds. -/
def InWindow (request : StoredRequest) (database : Database) (first last : ℤ) (row : DataRow) :
    Prop :=
  ∃ bucketIds, bucketIdsInRange request.options request.now database.buckets row.1.streamPart
    (first - bucketLookbackMs) last = .ok bucketIds ∧ row.1.bucketId ∈ bucketIds

theorem mem_keyRows {request : StoredRequest} {database : Database} {timestamps : List ℤ}
    {first last : ℤ} (hfirst : timestamps.min? = some first) (hlast : timestamps.max? = some last)
    {row : DataRow} : row ∈ keyRows request database timestamps ↔ row ∈ database.data.entries ∧
      request.streamPart = some row.1.streamPart ∧ row.1.timestamp ∈ timestamps ∧
      InWindow request database first last row := by
  unfold keyRows
  cases hpart : request.streamPart with
  | none => simp
  | some part =>
    obtain ⟨bucketIds, hids, -⟩ := bucketIdsInRange_spec request.options request.now
      database.buckets part (first - bucketLookbackMs) last
    have hwindow : ∀ row : DataRow, row.1.streamPart = part →
        (InWindow request database first last row ↔ row.1.bucketId ∈ bucketIds) := by
      rintro row rfl
      rw [InWindow, hids]
      simp
    simp only [rowsAtTimestamps, hfirst, hlast, hids]
    constructor
    · intro hmem
      split_ifs at hmem with hempty
      · cases hmem
      · obtain ⟨hrow, rfl, hid, htimestamp⟩ := StreamData.mem_select.mp hmem
        exact ⟨hrow, rfl, of_decide_eq_true htimestamp, (hwindow row rfl).mpr hid⟩
    · rintro ⟨hrow, hsome, htimestamp, hin⟩
      obtain rfl := Option.some.inj hsome
      have hid := (hwindow row rfl).mp hin
      rw [if_neg (List.length_pos_of_mem hid).ne']
      exact StreamData.mem_select.mpr ⟨hrow, rfl, hid, decide_eq_true htimestamp⟩

theorem mem_messageRows {request : StoredRequest} {database : Database} {target : PurgeTarget}
    {row : DataRow} : row ∈ messageRows request database target ↔ row ∈ database.data.entries ∧
      AtTarget request.streamPart target row ∧
      InWindow request database target.timestamp target.timestamp row := by
  unfold messageRows AtTarget
  cases hpart : request.streamPart with
  | none => simp
  | some part =>
    obtain ⟨bucketIds, hids, -⟩ := bucketIdsInRange_spec request.options request.now
      database.buckets part (target.timestamp - bucketLookbackMs) target.timestamp
    rw [PurgeEndpoint.mem_rowsAt_iff hids]
    constructor
    · rintro ⟨hrow, rfl, hid, htimestamp, hsequence⟩
      exact ⟨hrow, ⟨rfl, htimestamp, hsequence⟩, bucketIds, hids, hid⟩
    · rintro ⟨hrow, ⟨hsome, htimestamp, hsequence⟩, found, hfound, hid⟩
      obtain rfl := Option.some.inj hsome
      obtain rfl : found = bucketIds := Except.ok.inj (hfound.symm.trans hids)
      exact ⟨hrow, rfl, hid, htimestamp, hsequence⟩

theorem streamPart_of_mem_keyRows {request : StoredRequest} {database : Database}
    {timestamps : List ℤ} {row : DataRow} (hrow : row ∈ keyRows request database timestamps) :
    request.streamPart = some row.1.streamPart := by
  cases hfirst : timestamps.min? with
  | none =>
    obtain rfl := List.min?_eq_none_iff.mp hfirst
    unfold keyRows at hrow
    split at hrow <;> cases hrow
  | some first =>
    cases hlast : timestamps.max? with
    | none =>
      obtain rfl := List.max?_eq_none_iff.mp hlast
      cases hfirst
    | some last => exact ((mem_keyRows hfirst hlast).mp hrow).2.1

/-- The publishers of a target are those of the rows at it. -/
theorem mem_publishersAt {request : StoredRequest} {database : Database} {timestamps : List ℤ}
    {target : PurgeTarget} {publisher : String} :
    publisher ∈ publishersAt ((keyRows request database timestamps).map storedRowKeyOf) target ↔
      ∃ row ∈ keyRows request database timestamps, AtTarget request.streamPart target row ∧
        toLowerCase row.1.publisherId = publisher := by
  simp only [publishersAt, List.mem_map, List.mem_filter, decide_eq_true_eq]
  constructor
  · rintro ⟨key, ⟨⟨row, hrow, rfl⟩, hat⟩, rfl⟩
    exact ⟨row, hrow, ⟨streamPart_of_mem_keyRows hrow, hat⟩, rfl⟩
  · rintro ⟨row, hrow, ⟨-, hat⟩, rfl⟩
    exact ⟨storedRowKeyOf row, ⟨⟨row, hrow, rfl⟩, hat⟩, rfl⟩

theorem signedBy_iff {request : StoredRequest} {rows : List DataRow} :
    signedBy request.sdk (rows.map storedRowOf) request.signer = true ↔
      rows ≠ [] ∧ ∀ row ∈ rows, Signed request row := by
  rw [signedBy, decide_eq_true_eq, List.length_map, List.length_pos_iff, List.all_eq_true,
    List.forall_mem_map]
  refine and_congr_right fun _ ↦ forall₂_congr fun row _ ↦ ?_
  exact decide_eq_true_iff

/-- `getMessages` leaves the tables alone and returns the rows it finds. -/
theorem getMessages_eq_some {request : StoredRequest} {database after : Database}
    {target : PurgeTarget} {rows : List StoredRow}
    (hget : getMessages request.options request.now database request.streamPart target =
      (some rows, after)) :
    SameTables database after ∧ rows = (messageRows request database target).map storedRowOf := by
  obtain ⟨hbuckets, hdata, hrows⟩ := PurgeEndpoint.getMessages_spec hget
  refine ⟨⟨hbuckets, hdata⟩, ?_⟩
  unfold messageRows
  cases hpart : request.streamPart with
  | none =>
    rw [hpart, getMessages] at hget
    split at hget
    · cases (Prod.mk.inj hget).1
    · exact (Option.some.inj (Prod.mk.inj hget).1).symm
  | some part => exact hrows rows part rfl hpart

/-- `getRowKeys` leaves the tables alone and returns the keys of the rows it finds. -/
theorem getRowKeys_eq_some {request : StoredRequest} {database after : Database}
    {timestamps : List ℤ} {keys : List StoredRowKey}
    (hget : getRowKeys request.options request.now database request.streamPart timestamps =
      (some keys, after)) :
    SameTables database after ∧
      keys = (keyRows request database timestamps).map storedRowKeyOf := by
  unfold getRowKeys at hget
  unfold keyRows
  split at hget
  · cases (Prod.mk.inj hget).1
  · rename_i afterLookup hlookup
    obtain ⟨hlookupBuckets, hlookupData⟩ := Database.execute_eq_some hlookup
    cases hpart : request.streamPart with
    | none =>
      rw [hpart] at hget
      obtain ⟨hkeys, rfl⟩ := Prod.mk.inj hget
      exact ⟨⟨hlookupBuckets, hlookupData⟩, (Option.some.inj hkeys).symm⟩
    | some part =>
      rw [hpart] at hget
      dsimp only at hget
      split at hget
      · cases (Prod.mk.inj hget).1
      · rename_i afterQuery hquery
        obtain ⟨hqueryBuckets, hqueryData⟩ := Database.execute_eq_some hquery
        obtain ⟨hkeys, rfl⟩ := Prod.mk.inj hget
        exact ⟨⟨hqueryBuckets.trans hlookupBuckets, hqueryData.trans hlookupData⟩,
          (Option.some.inj hkeys).symm⟩

theorem length_publishersAt_pos_iff {request : StoredRequest} {database : Database}
    {timestamps : List ℤ} {target : PurgeTarget} :
    0 < (publishersAt ((keyRows request database timestamps).map storedRowKeyOf)
        target).length ↔
      ∃ row ∈ keyRows request database timestamps, AtTarget request.streamPart target row := by
  rw [List.length_pos_iff_exists_mem]
  constructor
  · rintro ⟨publisher, hpublisher⟩
    obtain ⟨row, hrow, hat, -⟩ := mem_publishersAt.mp hpublisher
    exact ⟨row, hrow, hat⟩
  · rintro ⟨row, hrow, hat⟩
    exact ⟨_, mem_publishersAt.mpr ⟨row, hrow, hat, rfl⟩⟩

theorem all_publishersAt_iff {request : StoredRequest} {database : Database}
    {timestamps : List ℤ} {target : PurgeTarget} {address : String} :
    (publishersAt ((keyRows request database timestamps).map storedRowKeyOf) target).all
        (fun publisher ↦ publisher = address) = true ↔
      ∀ row ∈ keyRows request database timestamps, AtTarget request.streamPart target row →
        toLowerCase row.1.publisherId = address := by
  rw [List.all_eq_true]
  constructor
  · intro hall row hrow hat
    exact of_decide_eq_true (hall _ (mem_publishersAt.mpr ⟨row, hrow, hat, rfl⟩))
  · intro hrows publisher hpublisher
    obtain ⟨row, hrow, hat, rfl⟩ := mem_publishersAt.mp hpublisher
    exact decide_eq_true (hrows row hrow hat)

/-- One round of the loop. -/
theorem storedTarget_spec {request : StoredRequest} {database after : Database}
    {timestamps : List ℤ} {target : PurgeTarget} {result : StoredResult}
    (hround : storedTarget request ((keyRows request database timestamps).map storedRowKeyOf)
      database target = (some result, after)) :
    SameTables database after ∧
      (result = .present ↔ Disclosed request database timestamps target) := by
  unfold Disclosed
  rw [← length_publishersAt_pos_iff, ← all_publishersAt_iff]
  unfold storedTarget at hround
  dsimp only at hround
  split_ifs at hround with hany hfast
  · obtain ⟨hresult, rfl⟩ := Prod.mk.inj hround
    obtain rfl := Option.some.inj hresult
    refine ⟨⟨rfl, rfl⟩, iff_of_true rfl ⟨hany, ?_⟩⟩
    exact hfast.imp_right Or.inl
  · obtain ⟨hreader, hothers⟩ := not_or.mp hfast
    split at hround
    · cases (Prod.mk.inj hround).1
    · rename_i rows queried hget
      obtain ⟨hsame, rfl⟩ := getMessages_eq_some hget
      obtain ⟨hresult, rfl⟩ := Prod.mk.inj hround
      obtain rfl := Option.some.inj hresult
      refine ⟨hsame, ?_⟩
      rw [← signedBy_iff]
      split_ifs with hsigned
      · exact iff_of_true rfl ⟨hany, Or.inr (Or.inr hsigned)⟩
      · refine iff_of_false nofun ?_
        rintro ⟨-, hcan | hall | hrows⟩
        · exact hreader hcan
        · exact hothers hall
        · exact hsigned hrows
  · obtain ⟨hresult, rfl⟩ := Prod.mk.inj hround
    obtain rfl := Option.some.inj hresult
    exact ⟨⟨rfl, rfl⟩, iff_of_false nofun fun hdisclosed ↦ hany hdisclosed.1⟩

theorem SameTables.disclosed {database after : Database} (hsame : SameTables database after)
    {request : StoredRequest} {timestamps : List ℤ} {target : PurgeTarget} :
    Disclosed request after timestamps target ↔ Disclosed request database timestamps target := by
  rw [Disclosed, Disclosed, hsame.keyRows, hsame.messageRows]

/-- The loop answers every target, each as the tables before it say. -/
theorem storedTargets_spec {request : StoredRequest} {database during : Database}
    {timestamps : List ℤ} {targets : List PurgeTarget}
    {results : List (PurgeTarget × StoredResult)} (hsame : SameTables database during)
    (hloop : storedTargets request ((keyRows request database timestamps).map storedRowKeyOf)
      during targets = some results) :
    results.map Prod.fst = targets ∧ ∀ entry ∈ results,
      (entry.2 = .present ↔ Disclosed request database timestamps entry.1) := by
  induction targets generalizing during results with
  | nil =>
    obtain rfl := Option.some.inj hloop
    exact ⟨rfl, nofun⟩
  | cons target targets ih =>
    rw [storedTargets] at hloop
    split at hloop
    · cases hloop
    · rename_i result after hround
      rw [← hsame.keyRows] at hround
      obtain ⟨hafter, hresult⟩ := storedTarget_spec hround
      obtain ⟨rest, hrest, rfl⟩ := Option.map_eq_some_iff.mp hloop
      obtain ⟨htargets, hresults⟩ := ih
        ⟨hafter.buckets.trans hsame.buckets, hafter.data.trans hsame.data⟩ hrest
      refine ⟨congrArg (target :: ·) htargets, fun entry hentry ↦ ?_⟩
      rcases List.mem_cons.mp hentry with rfl | hentry
      · exact hresult.trans hsame.disclosed
      · exact hresults entry hentry

/-! ### Tables in which the two lookups agree -/

/-- The bucket of the row is in the bucket table. -/
def HasBucket (buckets : BucketTable) (row : DataRow) : Prop :=
  ∃ date columns, buckets.get? ⟨row.1.streamPart, date⟩ = some columns ∧
    columns.id = row.1.bucketId

theorem InWindow.hasBucket {request : StoredRequest} {database : Database} {first last : ℤ}
    {row : DataRow} (hwindow : InWindow request database first last row) :
    HasBucket database.buckets row := by
  obtain ⟨bucketIds, hids, hmem⟩ := hwindow
  exact get?_of_mem_bucketIdsInRange hids hmem

/-- Every lookup over the timestamp of a row finds its bucket, if the bucket is in the table, and
the rows under the address of the signer were signed by the signer. -/
structure Attributed (request : StoredRequest) (database : Database) : Prop where
  window : ∀ row ∈ database.data.entries, HasBucket database.buckets row → ∀ first last,
    first ≤ row.1.timestamp → row.1.timestamp ≤ last → InWindow request database first last row
  own : ∀ row ∈ database.data.entries,
    toLowerCase row.1.publisherId = toLowerCase request.signer.text → Signed request row

theorem Attributed.mem_messageRows_iff {request : StoredRequest} {database : Database}
    (hattributed : Attributed request database) {target : PurgeTarget} {row : DataRow} :
    row ∈ messageRows request database target ↔ row ∈ database.data.entries ∧
      AtTarget request.streamPart target row ∧ HasBucket database.buckets row := by
  rw [mem_messageRows]
  refine and_congr_right fun hrow ↦ and_congr_right fun hat ↦ ⟨InWindow.hasBucket, fun hbucket ↦ ?_⟩
  exact hattributed.window row hrow hbucket _ _ hat.2.1.ge hat.2.1.le

theorem Attributed.mem_keyRows_iff {request : StoredRequest} {database : Database}
    (hattributed : Attributed request database) {timestamps : List ℤ} {target : PurgeTarget}
    (htarget : target.timestamp ∈ timestamps) {row : DataRow}
    (hat : AtTarget request.streamPart target row) :
    row ∈ keyRows request database timestamps ↔ row ∈ database.data.entries ∧
      HasBucket database.buckets row := by
  obtain ⟨first, hfirst⟩ := Option.isSome_iff_exists.mp
    (List.isSome_min?_of_mem htarget)
  obtain ⟨last, hlast⟩ := Option.isSome_iff_exists.mp (List.isSome_max?_of_mem htarget)
  have htimestamp : row.1.timestamp ∈ timestamps := hat.2.1 ▸ htarget
  rw [mem_keyRows hfirst hlast]
  refine and_congr_right fun hrow ↦ ?_
  constructor
  · exact fun hfound ↦ hfound.2.2.hasBucket
  · intro hbucket
    refine ⟨hat.1, htimestamp, hattributed.window row hrow hbucket first last ?_ ?_⟩
    · exact (List.min?_eq_some_iff.mp hfirst).2 _ htimestamp
    · exact (List.max?_eq_some_iff.mp hlast).2 _ htimestamp

/-- What is disclosed when the two lookups agree: the fast path adds nothing to the slow one. -/
theorem Attributed.disclosed_iff {request : StoredRequest} {database : Database}
    (hattributed : Attributed request database) {timestamps : List ℤ} {target : PurgeTarget}
    (htarget : target.timestamp ∈ timestamps) :
    Disclosed request database timestamps target ↔
      (∃ row ∈ database.data.entries, AtTarget request.streamPart target row ∧
        HasBucket database.buckets row) ∧
      (request.canRead = true ∨ ∀ row ∈ database.data.entries,
        AtTarget request.streamPart target row → HasBucket database.buckets row →
          Signed request row) := by
  unfold Disclosed
  constructor
  · rintro ⟨⟨row, hrow, hat⟩, hright⟩
    obtain ⟨hentry, hbucket⟩ := (hattributed.mem_keyRows_iff htarget hat).mp hrow
    refine ⟨⟨row, hentry, hat, hbucket⟩, ?_⟩
    rcases hright with hreader | hpublishers | ⟨-, hsigned⟩
    · exact Or.inl hreader
    · refine Or.inr fun other hother hotherAt hotherBucket ↦ ?_
      have hkey := (hattributed.mem_keyRows_iff htarget hotherAt).mpr ⟨hother, hotherBucket⟩
      exact hattributed.own other hother (hpublishers other hkey hotherAt)
    · refine Or.inr fun other hother hotherAt hotherBucket ↦ ?_
      exact hsigned other (hattributed.mem_messageRows_iff.mpr ⟨hother, hotherAt, hotherBucket⟩)
  · rintro ⟨⟨row, hrow, hat, hbucket⟩, hright⟩
    refine ⟨⟨row, (hattributed.mem_keyRows_iff htarget hat).mpr ⟨hrow, hbucket⟩, hat⟩, ?_⟩
    refine hright.imp_right fun hsigned ↦ Or.inr ⟨?_, fun other hother ↦ ?_⟩
    · exact List.ne_nil_of_mem (hattributed.mem_messageRows_iff.mpr ⟨hrow, hat, hbucket⟩)
    · obtain ⟨hentry, hotherAt, hotherBucket⟩ := hattributed.mem_messageRows_iff.mp hother
      exact hsigned other hentry hotherAt hotherBucket

/-! ### Runs -/

/-- An ERC-1271 message that names the account as its publisher is stored only if the account signed
it. -/
def OwnMessagesSigned (sdk : Sdk) (config : ValidationConfig) (signer : EthereumAddress) :
    StoragePlugin.Event → Prop
  | .receive payload hasStreamPart chain _ _ => ∀ message,
    sdk.convertBytesToStreamMessage payload = some message →
    StoragePlugin.IsStored sdk config chain hasStreamPart message →
    message.signatureType = .erc1271 → message.getPublisherId = signer.text →
    getMessageSigner sdk message = some signer
  | _ => True

/-- The condition on the steps of a run, for the signer of a request: the placement is in order, and
no message is stored under the address of the signer that somebody else signed. -/
def Regular (sdk : Sdk) (config : ValidationConfig) (signer : EthereumAddress)
    (state : StoragePlugin.State) (event : StoragePlugin.Event) : Prop :=
  StoragePlugin.InOrder sdk config state event ∧ OwnMessagesSigned sdk config signer event

theorem eq_of_text {first second : EthereumAddress} (htext : first.text = second.text) :
    first = second := by
  cases first
  cases second
  exact (EthereumAddress.mk.injEq ..).mpr htext

variable {package : HeapPackage} {config : ValidationConfig} {state : StoragePlugin.State}

/-- The payload of the message reads back, and the account signed it if it names the account as its
publisher. -/
def SignedIfOwn (sdk : Sdk) (signer : EthereumAddress) (arrival : StoragePlugin.Arrival) : Prop :=
  sdk.convertBytesToStreamMessage arrival.payload = some arrival.message ∧
    (arrival.message.getPublisherId = signer.text →
      getMessageSigner sdk arrival.message = some signer)

/-- What is stored under the address of an account was signed by it.
Assumes: the other signature schemes check the length of the public key. -/
theorem signedIfOwn_of_isStored {sdk : Sdk} {signer : EthereumAddress}
    (hkeys : ChecksKeyLength sdk) {payload : List UInt8} {hasStreamPart : Bool}
    {chain : ChainOutcomes} {receivedAt now : ℤ} {message : StreamMessage}
    (hown : OwnMessagesSigned sdk config signer
      (.receive payload hasStreamPart chain receivedAt now))
    (hread : sdk.convertBytesToStreamMessage payload = some message)
    (hstored : StoragePlugin.IsStored sdk config chain hasStreamPart message) :
    SignedIfOwn sdk signer ⟨message, payload, receivedAt⟩ := by
  refine ⟨hread, fun hname ↦ ?_⟩
  by_cases htype : message.signatureType = .erc1271
  · exact hown message hread hstored htype hname
  · -- twenty bytes, because the address has the length of one
    have hlength : message.publisherId.length = 20 := by
      have htext := congrArg (fun text ↦ text.toList.length) hname
      dsimp only at htext
      rw [StreamMessage.getPublisherId, length_toUserId, signer.length_eq] at htext
      simp only [prefixedStringLength] at htext
      omega
    obtain ⟨found, hfound, htext⟩ := publisher_signed_of_store hkeys hstored.2.2 htype hlength
    rw [hfound, eq_of_text (htext.trans hname)]

/-- The rows under the address of the signer were signed by the signer.
Assumes: the run kept the condition, and the address is in lower case. -/
theorem signed_of_regular {request : StoredRequest} (hkeys : ChecksKeyLength request.sdk)
    (hlower : toLowerCase request.signer.text = request.signer.text)
    (hreachable : Transition.Reachable
      (StoragePlugin.step package request.options request.sdk config)
      (Regular request.sdk config request.signer) StoragePlugin.Start state)
    {row : DataRow} (hrow : row ∈ state.data.entries)
    (hpublisher : toLowerCase row.1.publisherId = toLowerCase request.signer.text) :
    Signed request row := by
  have hrecorded := StoragePlugin.recorded_of_reachable hreachable
  obtain ⟨⟨arrival, bucketId⟩, hplaced, rfl⟩ := hrecorded.rows row hrow
  obtain ⟨hread, hown⟩ : SignedIfOwn request.sdk request.signer arrival := by
    refine StoragePlugin.arrived_of_reachable (SignedIfOwn request.sdk request.signer) ?_
      hreachable arrival (hrecorded.placed _ hplaced)
    intro before payload hasStreamPart chain receivedAt now message hregular
    exact signedIfOwn_of_isStored hkeys hregular.2
  have hname : arrival.message.getPublisherId = request.signer.text :=
    (toLowerCase_toUserId arrival.message.publisherId).symm.trans (hpublisher.trans hlower)
  change (request.sdk.convertBytesToStreamMessage arrival.payload).bind
    (getMessageSigner request.sdk) = some request.signer
  rw [hread]
  exact hown hname

/-- Every lookup over the timestamp of a row finds its bucket, once the bucket is in the table.
Assumes: the run kept the condition. -/
theorem inWindow_of_regular {request : StoredRequest} {database : Database}
    (hreachable : Transition.Reachable
      (StoragePlugin.step package request.options request.sdk config)
      (Regular request.sdk config request.signer) StoragePlugin.Start state)
    (hbuckets : database.buckets = state.manager.table) {row : DataRow}
    (hrow : row ∈ state.data.entries) (hbucket : HasBucket database.buckets row) {first last : ℤ}
    (hfirst : first ≤ row.1.timestamp) (hlast : row.1.timestamp ≤ last) :
    InWindow request database first last row := by
  obtain ⟨⟨arrival, bucketId⟩, hplaced, rfl⟩ :=
    (StoragePlugin.recorded_of_reachable hreachable).rows row hrow
  have hinvariant := BucketPlacement.invariant_of_reachable
    (StoragePlugin.placement_reachable (fun _ _ hregular ↦ hregular.1) hreachable)
  obtain ⟨bucketIds, hids, -⟩ := bucketIdsInRange_spec request.options request.now
    database.buckets (StoragePlugin.rowOf arrival bucketId).1.streamPart
    (first - bucketLookbackMs) last
  obtain ⟨date, columns, hcolumns, hid⟩ := hbucket
  refine ⟨bucketIds, hids, ?_⟩
  rw [hbuckets] at hids hcolumns
  have hmessage : (StoragePlugin.placementMessage arrival, bucketId) ∈
      (StoragePlugin.placementOf state).placed := List.mem_map.mpr ⟨_, hplaced, rfl⟩
  exact hinvariant.mem_bucketIdsInRange hmessage hcolumns hid hfirst hlast hids

theorem attributed_of_regular {request : StoredRequest} {database : Database}
    (hkeys : ChecksKeyLength request.sdk)
    (hlower : toLowerCase request.signer.text = request.signer.text)
    (hreachable : Transition.Reachable
      (StoragePlugin.step package request.options request.sdk config)
      (Regular request.sdk config request.signer) StoragePlugin.Start state)
    (hbuckets : database.buckets = state.manager.table) (hdata : database.data = state.data) :
    Attributed request database := by
  refine ⟨fun row hrow hbucket first last hfirst hlast ↦ ?_, fun row hrow hpublisher ↦ ?_⟩
  · exact inWindow_of_regular hreachable hbuckets (hdata ▸ hrow) hbucket hfirst hlast
  · exact signed_of_regular hkeys hlower hreachable (hdata ▸ hrow) hpublisher

/-! ### What the answers may disclose -/

section Answers

variable (endpoint : Endpoint) (gates : PomboGates.State) (request : HttpRequest)
  (admitted : AdmittedRequest) (database : Database) (target : PurgeTarget)

/-- The row is at the target of the request. -/
def AtRequested (row : DataRow) : Prop :=
  AtTarget (streamPart? request.streamId admitted.partition) target row

/-- The signer of the request signed the message in the row. -/
def SignedByRequester (row : DataRow) : Prop :=
  messageSigner endpoint.sdk row.2.payload = some admitted.signer

/-- `getMessages` returns a row at the target, if no statement fails. -/
def ReturnsMessages : Prop :=
  ∃ rows, (getMessages endpoint.options request.now { database with statementsLeft := none }
    (streamPart? request.streamId admitted.partition) target).1 = some rows ∧ rows ≠ []

/-- What an answer may disclose. A target is present only if there are rows at it, and the signer
may read the stream, or that cannot be looked up and the stream was last seen as public, or the
signer signed all of the rows; and for a signer who may read the stream it is present exactly when
`getMessages` returns a row. -/
structure Entitled (result : StoredResult) : Prop where
  disclosed : result = .present →
    (∃ row ∈ database.data.entries, AtRequested request admitted target row) ∧
      (canRead endpoint.lookups request.streamId admitted.signer = some true ∨
        (canRead endpoint.lookups request.streamId admitted.signer = none ∧
          wasLastSeenPublic gates request.streamId = true) ∨
        ∀ row ∈ database.data.entries, AtRequested request admitted target row →
          SignedByRequester endpoint admitted row)
  reader : canRead endpoint.lookups request.streamId admitted.signer = some true →
    (result = .present ↔ ReturnsMessages endpoint request admitted database target)

/-- The rows at the target that the lookups cannot find, because their buckets are not in the bucket
table yet, give nothing away: if the signer is not taken for a reader, and there are rows that the
lookups find and the signer signed these, then the signer signed the others too. -/
def UnlistedSigned : Prop :=
  treatedAsReader endpoint.lookups gates request.streamId admitted.signer = some false →
    (∃ row ∈ database.data.entries, AtRequested request admitted target row ∧
      HasBucket database.buckets row) →
    (∀ row ∈ database.data.entries, AtRequested request admitted target row →
      HasBucket database.buckets row → SignedByRequester endpoint admitted row) →
    ∀ row ∈ database.data.entries, AtRequested request admitted target row →
      ¬ HasBucket database.buckets row → SignedByRequester endpoint admitted row

end Answers

section Requests

variable {endpoint : Endpoint} {gates : PomboGates.State} {verifier : SignedRequestVerifier}
  {request : HttpRequest} {admitted : AdmittedRequest} {database : Database}

theorem toLowerCase_of_admitRequest
    (hadmitted : (admitRequest endpoint verifier request).1 = .ok admitted) :
    toLowerCase admitted.signer.text = admitted.signer.text := by
  unfold admitRequest at hadmitted
  split at hadmitted
  · cases hadmitted
  · split at hadmitted
    · cases hadmitted
    · split at hadmitted
      · cases hadmitted
      · rename_i signer after hverify
        obtain rfl := Except.ok.inj hadmitted
        exact toLowerCase_of_verify hverify

/-- The results of a request are the answers of the loop on the tables it finds. -/
theorem handle_spec (hadmitted : (admitRequest endpoint verifier request).1 = .ok admitted)
    {results : List (PurgeTarget × StoredResult)}
    (hresults : (handle endpoint gates verifier database request).1 = .results results) :
    ∃ granted,
      treatedAsReader endpoint.lookups gates request.streamId admitted.signer = some granted ∧
      results.map Prod.fst = admitted.targets ∧
      ∀ entry ∈ results, (entry.2 = .present ↔
        Disclosed (storedRequestOf endpoint request admitted granted) database
          (admitted.targets.map PurgeTarget.timestamp) entry.1) := by
  unfold handle at hresults
  cases hchecks : admitRequest endpoint verifier request with
  | mk outcome after =>
    rw [hchecks] at hadmitted hresults
    obtain rfl : outcome = .ok admitted := hadmitted
    dsimp only at hresults
    cases hreader : treatedAsReader endpoint.lookups gates request.streamId admitted.signer with
    | none =>
      rw [hreader] at hresults
      cases hresults
    | some granted =>
      rw [hreader] at hresults
      dsimp only at hresults
      split at hresults
      · cases hresults
      · rename_i keys queried hkeys
        obtain ⟨hsame, rfl⟩ := getRowKeys_eq_some hkeys
        split at hresults
        · cases hresults
        · rename_i found hloop
          obtain rfl := StoredResponse.results.inj hresults
          exact ⟨granted, rfl, storedTargets_spec hsame hloop⟩

theorem returnsMessages_iff (granted : Bool) {target : PurgeTarget} :
    ReturnsMessages endpoint request admitted database target ↔
      messageRows (storedRequestOf endpoint request admitted granted) database target ≠ [] := by
  unfold ReturnsMessages messageRows
  cases hpart : streamPart? request.streamId admitted.partition with
  | none => simp [getMessages, Database.execute, storedRequestOf, hpart]
  | some part => simp [getMessages, Database.execute, storedRequestOf, hpart]

/-- What the handler takes a signer for who is not confirmed as a reader. -/
theorem canRead_of_treatedAsReader {lookups : AccessLookups} {streamId : String}
    {signer : EthereumAddress} {granted : Bool}
    (hreader : treatedAsReader lookups gates streamId signer = some granted) :
    canRead lookups streamId signer = some granted ∨
      (canRead lookups streamId signer = none ∧ wasLastSeenPublic gates streamId = true ∧
        granted = true) := by
  unfold treatedAsReader at hreader
  cases hread : canRead lookups streamId signer with
  | some found =>
    rw [hread] at hreader
    exact Or.inl hreader
  | none =>
    rw [hread] at hreader
    dsimp only at hreader
    split_ifs at hreader with hpublic
    exact Or.inr ⟨rfl, hpublic, (Option.some.inj hreader).symm⟩

/-- One answer, on tables in which the two lookups agree. -/
theorem entitled_iff {granted : Bool} {target : PurgeTarget} {result : StoredResult}
    (hattributed : Attributed (storedRequestOf endpoint request admitted granted) database)
    (htarget : target ∈ admitted.targets)
    (hreader : treatedAsReader endpoint.lookups gates request.streamId admitted.signer =
      some granted)
    (hresult : result = .present ↔
      Disclosed (storedRequestOf endpoint request admitted granted) database
        (admitted.targets.map PurgeTarget.timestamp) target) :
    Entitled endpoint gates request admitted database target result ↔
      UnlistedSigned endpoint gates request admitted database target := by
  rw [hattributed.disclosed_iff (List.mem_map.mpr ⟨target, htarget, rfl⟩)] at hresult
  constructor
  · intro hentitled hrefused hlisted hsigned
    obtain rfl := Option.some.inj (hreader.symm.trans hrefused)
    obtain ⟨-, hright⟩ := hentitled.disclosed (hresult.mpr ⟨hlisted, Or.inr hsigned⟩)
    have hread : canRead endpoint.lookups request.streamId admitted.signer = some false := by
      rcases canRead_of_treatedAsReader hreader with hread | ⟨-, -, hgranted⟩
      · exact hread
      · cases hgranted
    rw [hread] at hright
    rcases hright with hgranted | ⟨hnone, -⟩ | hall
    · cases hgranted
    · cases hnone
    · exact fun row hrow hat _ ↦ hall row hrow hat
  · intro hunlisted
    constructor
    · intro hpresent
      obtain ⟨⟨row, hrow, hat, hbucket⟩, hright⟩ := hresult.mp hpresent
      refine ⟨⟨row, hrow, hat⟩, ?_⟩
      rcases canRead_of_treatedAsReader hreader with hread | ⟨hnone, hpublic, -⟩
      · cases granted with
        | true => exact Or.inl hread
        | false =>
          refine Or.inr (Or.inr fun other hother hotherAt ↦ ?_)
          have hsigned := hright.resolve_left Bool.false_ne_true
          by_cases hotherBucket : HasBucket database.buckets other
          · exact hsigned other hother hotherAt hotherBucket
          · exact hunlisted hreader ⟨row, hrow, hat, hbucket⟩ hsigned other hother hotherAt
              hotherBucket
      · exact Or.inr (Or.inl ⟨hnone, hpublic⟩)
    · intro hread
      obtain rfl : granted = true := by
        rcases canRead_of_treatedAsReader hreader with hgranted | ⟨hnone, -, -⟩
        · exact Option.some.inj (hgranted.symm.trans hread)
        · rw [hnone] at hread
          cases hread
      rw [hresult, returnsMessages_iff true]
      constructor
      · rintro ⟨⟨row, hrow, hat, hbucket⟩, -⟩
        exact List.ne_nil_of_mem (hattributed.mem_messageRows_iff.mpr ⟨hrow, hat, hbucket⟩)
      · intro hsome
        obtain ⟨row, hrow⟩ := List.exists_mem_of_ne_nil _ hsome
        obtain ⟨hentry, hat, hbucket⟩ := hattributed.mem_messageRows_iff.mp hrow
        exact ⟨⟨row, hentry, hat, hbucket⟩, Or.inl rfl⟩

end Requests

/-! ### A row in disguise -/

/-- A check that the placement is in order. -/
def checkPlacement (sdk : Sdk) (config : ValidationConfig) (state : StoragePlugin.State)
    (event : StoragePlugin.Event) : Bool :=
  (StoragePlugin.placementEvent sdk config event).all
    (BucketPlacement.checkInOrder (StoragePlugin.placementOf state))

theorem inOrder_of_checkPlacement {sdk : Sdk} (state : StoragePlugin.State)
    (event : StoragePlugin.Event) (hcheck : checkPlacement sdk config state event = true) :
    StoragePlugin.InOrder sdk config state event := by
  intro placement hevent
  rw [checkPlacement, hevent, Option.all_some] at hcheck
  exact BucketPlacement.inOrder_of_checkInOrder _ placement hcheck

/-- A check of the condition on a step that lets no ERC-1271 message pass. -/
def checkRegular (sdk : Sdk) (config : ValidationConfig) (state : StoragePlugin.State)
    (event : StoragePlugin.Event) : Bool :=
  checkPlacement sdk config state event &&
    match event with
    | .receive payload _ _ _ _ => (sdk.convertBytesToStreamMessage payload).all fun message ↦
      message.signatureType ≠ .erc1271
    | _ => true

theorem regular_of_checkRegular {sdk : Sdk} (signer : EthereumAddress)
    (state : StoragePlugin.State) (event : StoragePlugin.Event)
    (hcheck : checkRegular sdk config state event = true) :
    Regular sdk config signer state event := by
  obtain ⟨hplacement, hmessage⟩ := (Bool.and_eq_true _ _).mp hcheck
  refine ⟨inOrder_of_checkPlacement state event hplacement, ?_⟩
  cases event with
  | receive payload hasStreamPart chain receivedAt now =>
    intro message hread _ htype
    dsimp only at hmessage
    rw [hread, Option.all_some] at hmessage
    exact absurd htype (of_decide_eq_true hmessage)
  | _ => trivial

/-- A message under the address of the sample user. -/
def sampleMessage (timestamp : ℤ) (signature : List UInt8) (signatureType : SignatureType) :
    StreamMessage where
  streamPart := BucketDates.stream
  timestamp := timestamp
  sequenceNumber := ⟨0, zero_sequenceNumber⟩
  publisherId := List.replicate 20 0x11
  msgChainId := "chain"
  prevMsgRef := none
  messageType := .message
  content := []
  encrypted := false
  newGroupKey := none
  signature := signature
  signatureType := signatureType

theorem length_address (byte : UInt8) : (List.replicate 20 byte).length = 20 :=
  List.length_replicate

/-- A client for a few messages, which name the sample user as their publisher. A signature here is
a byte of the address that signed. -/
def sampleSdk : Sdk where
  numberToString := toString
  binaryToUtf8 := fun _ ↦ ""
  stringifyPair := fun first second ↦ first ++ second
  groupKeyFields := fun _ _ ↦ none
  groupKeyRecipient := fun _ _ ↦ none
  recoverSignerUserId := fun signature _ ↦ match signature with
    | [byte] => some ⟨List.replicate 20 byte, length_address byte⟩
    | _ => none
  verifySecp256r1 := fun _ _ _ ↦ some false
  verifyMlDsa87 := fun _ _ _ ↦ some false
  convertBytesToStreamMessage := fun bytes ↦ match bytes with
    | [1] => some (sampleMessage 1500 [0x11] .ecdsaSecp256k1Evm)
    | [2] => some (sampleMessage 1500 [0x22] .erc1271)
    | [3] => some (sampleMessage 2500 [0x11] .ecdsaSecp256k1Evm)
    | [4] => some (sampleMessage 700000 [0x11] .ecdsaSecp256k1Evm)
    | [5] => some (sampleMessage 650000 [0x11] .ecdsaSecp256k1Evm)
    | _ => none

theorem sampleSdk_checksKeyLength : ChecksKeyLength sampleSdk := by
  constructor
  · intro publicKey payload signature hvalid
    cases hvalid
  · intro publicKey payload signature hvalid
    cases hvalid

/-- The stream has one partition and no gate, everybody may publish, and no contract answers. -/
def sampleChain : ChainOutcomes where
  isValidSignature := fun _ _ ↦ none
  partitionCount := fun _ ↦ .ok 1
  isStreamPublisher := fun _ _ ↦ .ok true
  isStreamSubscriber := fun _ _ ↦ .ok true
  getGate := fun _ ↦ .answered none
  isModerator := fun _ _ ↦ none

/-- The validation with all its checks. -/
def sampleConfig : ValidationConfig := ⟨true, true⟩

/-- An endpoint for a stream without gate that everybody may read, or nobody. -/
def sampleEndpoint (isPublic : Bool) : Endpoint where
  host := sampleHost
  sdk := sampleSdk
  lookups := ⟨fun _ ↦ some none, fun _ _ ↦ some false, fun _ _ ↦ some false,
    fun _ ↦ some isPublic, fun _ _ ↦ some false⟩
  options := defaultBucketManagerOptions

/-- No stream was ever seen. -/
def sampleGates : PomboGates.State :=
  ⟨OrderedMap.empty, OrderedMap.empty, OrderedSet.empty, OrderedMap.empty, OrderedMap.empty,
    OrderedMap.empty⟩

/-- A node on a table with one bucket. -/
def newNode : StoragePlugin.State := ⟨BucketDates.newManager, [], [], [], OrderedMap.empty⟩

theorem start_newNode : StoragePlugin.Start newNode :=
  ⟨⟨BucketDates.start_newManager, rfl, rfl, rfl⟩, rfl⟩

/-- A message is received and waits until the bucket is loaded; then it is placed, and its row is
written. -/
def storeMessage (payload : List UInt8) : List StoragePlugin.Event :=
  [.receive payload true sampleChain 0 0, .timer .beginCheck, .timer .takeUp,
    .timer (.evaluate 0), .timer (.resume "second" 0), .timer .takeUp, .retry 0 0, .write 0]

/-- The row of a sample message. -/
def sampleRow (payload : List UInt8) : DataRow :=
  (⟨BucketDates.stream, "first", 1500, ⟨0, zero_sequenceNumber⟩, sampleUser, "chain"⟩,
    ⟨some payload, some 0⟩)

/-- The database of a node, on which every statement succeeds. -/
def databaseOf (state : StoragePlugin.State) : Database := ⟨state.manager.table, state.data, none⟩

/-- A request of the sample user about the messages with the given timestamps. -/
def sampleRequest (timestamps : List ℤ) : HttpRequest where
  now := 300000
  streamId := "stream"
  partitionText := "0"
  partition := some 0
  targets := some (timestamps.map fun timestamp ↦
    ⟨.number (.finite timestamp), .number (.finite 0)⟩)
  envelope := sampleEnvelope

/-- The request as it is admitted. -/
def sampleAdmitted (timestamps : List ℤ) : AdmittedRequest :=
  ⟨0, timestamps.map fun timestamp ↦ ⟨timestamp, 0⟩, sampleAddress⟩

theorem admit_sampleRequest :
    (admitRequest (sampleEndpoint false) SignedRequestVerifier.create (sampleRequest [1500])).1 =
      .ok (sampleAdmitted [1500]) := by
  have hfields : (admitRequest (sampleEndpoint false) SignedRequestVerifier.create
      (sampleRequest [1500])).1.toOption.map (fun admitted ↦
        (admitted.partition, admitted.targets, admitted.signer)) =
      some (0, [⟨1500, 0⟩], sampleAddress) := by
    decide +kernel
  obtain ⟨⟨partition, targets, signer⟩, hadmitted, hequal⟩ := Option.map_eq_some_iff.mp hfields
  simp only [Prod.mk.injEq] at hequal
  obtain ⟨rfl, rfl, rfl⟩ := hequal
  cases houtcome : (admitRequest (sampleEndpoint false) SignedRequestVerifier.create
      (sampleRequest [1500])).1 with
  | error response =>
    rw [houtcome] at hadmitted
    cases hadmitted
  | ok admitted =>
    rw [houtcome] at hadmitted
    exact congrArg Except.ok (Option.some.inj hadmitted)

/-- The answers of a response. -/
def resultsOf : StoredResponse → List (PurgeTarget × StoredResult)
  | .results results => results
  | _ => []

theorem eq_results_of_resultsOf {response : StoredResponse} {entry : PurgeTarget × StoredResult}
    {rest : List (PurgeTarget × StoredResult)} (hresults : resultsOf response = entry :: rest) :
    response = .results (entry :: rest) := by
  cases response with
  | results results => exact congrArg StoredResponse.results hresults
  | status code error => cases hresults
  | failed => cases hresults

/-- A node on a table with two buckets: the old one is almost full, the newer one will be with one
more record. -/
def olderNode : StoragePlugin.State :=
  ⟨BucketPlacement.newNode.manager, [], [], [], OrderedMap.empty⟩

/-- The array of the heap offers the old bucket for the last message before the newer one, in which
the reads look for it. -/
def storeInOlderBucket : List StoragePlugin.Event :=
  [.receive [1] true sampleChain 0 0, .timer .beginCheck, .timer .takeUp, .timer (.evaluate 0),
    .timer (.resume "newest" 0), .timer (.evaluate 0), .timer (.resume "newest" 0),
    .timer .takeUp, .retry 0 0, .receive [3] true sampleChain 0 0,
    .receive [4] true sampleChain 0 0, .timer .beginCheck, .timer .takeUp, .timer (.evaluate 0),
    .timer (.resume "newest" 0), .timer .takeUp, .retry 0 0, .receive [5] true sampleChain 0 0,
    .write 0]

/-- A row outside the buckets around its timestamp is found when another target of the request is
far enough away, and not by `getMessages`. -/
theorem misplaced_row_answered_present : ∃ state,
    Transition.Reachable (StoragePlugin.step BucketDates.rootedHeap
        (sampleEndpoint true).options (sampleEndpoint true).sdk sampleConfig) (fun _ _ ↦ True)
        StoragePlugin.Start state ∧
      (handle (sampleEndpoint true) sampleGates SignedRequestVerifier.create (databaseOf state)
        (sampleRequest [650000, 1500])).1 =
          .results [(⟨650000, 0⟩, .present), (⟨1500, 0⟩, .absent)] ∧
      ¬ Entitled (sampleEndpoint true) sampleGates (sampleRequest [650000, 1500])
        (sampleAdmitted [650000, 1500]) (databaseOf state) ⟨650000, 0⟩ .present := by
  have hrun : (Transition.run (StoragePlugin.step BucketDates.rootedHeap
      defaultBucketManagerOptions sampleSdk sampleConfig) olderNode storeInOlderBucket).map
      (fun state ↦ (resultsOf (handle (sampleEndpoint true) sampleGates
          SignedRequestVerifier.create (databaseOf state) (sampleRequest [650000, 1500])).1,
        (getMessages defaultBucketManagerOptions 300000 (databaseOf state)
          (some BucketDates.stream) ⟨650000, 0⟩).1)) =
      some ([(⟨650000, 0⟩, .present), (⟨1500, 0⟩, .absent)], some []) := by
    decide +kernel
  obtain ⟨state, hstate, hfacts⟩ := Option.map_eq_some_iff.mp hrun
  obtain ⟨hresults, hmessages⟩ := Prod.mk.inj hfacts
  have hstart : StoragePlugin.Start olderNode :=
    ⟨⟨BucketPlacement.start_newNode.manager, rfl, rfl, rfl⟩, rfl⟩
  refine ⟨state, .of_run _ (fun _ _ _ ↦ trivial) (.start hstart) hstate,
    eq_results_of_resultsOf hresults, fun hentitled ↦ ?_⟩
  obtain ⟨rows, hrows, hsome⟩ := (hentitled.reader rfl).mp rfl
  exact hsome (Option.some.inj (hrows.symm.trans hmessages))

end PomboStorageNode.Storage.StoredEndpoint
