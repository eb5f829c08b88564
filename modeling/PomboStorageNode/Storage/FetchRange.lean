import PomboStorageNode.Library.Selection
import PomboStorageNode.Storage.Bucket

/-!
# Range reads

`Storage.fetchRange` streams the messages of a range. It looks up the buckets of the range, and
then runs either one query, when the sequence numbers exclude nothing, or three: the rest of the
first millisecond, the milliseconds between, and the start of the last millisecond. `merge2`
concatenates the results, and `parseRow` drops the rows without payload.

The three queries are disjoint and cover the range when it starts in an earlier millisecond than it
ends, and otherwise they do not: with one millisecond at both ends each of the two boundary queries
applies its own bound and forgets the other one. `fetchRange_exact_iff` says for which requests the
stream is right on every table.
-/

set_option autoImplicit false

namespace PomboStorageNode.Storage.FetchRange

open Library Tables BucketManager

/-! ### The request and its queries -/

/-- The range and the filters of a request. -/
structure RangeRequest where
  streamPart : StreamPart
  fromTimestamp : ℤ
  fromSequenceNo : ℤ
  toTimestamp : ℤ
  toSequenceNo : ℤ
  publisherId : Option String
  msgChainId : Option String

/-- A clause ` AND column = ?` that is only there when its value is. -/
def matchesFilter (filter : Option String) (value : String) : Bool :=
  match filter with
  | some wanted => value = wanted
  | none => true

/-- The clauses that `publisherId` and `msgChainId` add to every query. -/
def matchesFilters (request : RangeRequest) (key : DataKey) : Bool :=
  matchesFilter request.publisherId key.publisherId &&
    matchesFilter request.msgChainId key.msgChainId

/-- The `WHERE` clauses of the queries, on the columns `ts` and `sequence_no`. -/
def rangeClauses (request : RangeRequest) : List (DataKey → Bool) :=
  -- the typical case where the sequence numbers do not filter out anything
  if request.fromSequenceNo = minSequenceNumberValue ∧
      request.toSequenceNo = maxSequenceNumberValue then
    [fun key ↦ request.fromTimestamp ≤ key.timestamp ∧ key.timestamp ≤ request.toTimestamp]
  else
    [fun key ↦ key.timestamp = request.fromTimestamp ∧
        request.fromSequenceNo ≤ key.sequenceNo.val,
      fun key ↦ request.fromTimestamp < key.timestamp ∧ key.timestamp < request.toTimestamp,
      fun key ↦ key.timestamp = request.toTimestamp ∧ key.sequenceNo.val ≤ request.toSequenceNo]

/-- The queries: each clause together with the filters. -/
def queries (request : RangeRequest) : List (DataKey → Bool) :=
  (rangeClauses request).map fun clause key ↦ clause key && matchesFilters request key

/-- The rows that `fetchRange` pipes into its result stream: nothing without buckets, and otherwise
the results of the queries one after the other. -/
def fetchRangeRows (options : BucketManagerOptions) (now : ℤ) (buckets : BucketTable)
    (data : StreamData) (request : RangeRequest) : Except String (List DataRow) := do
  let bucketIds ← bucketIdsInRange options now buckets request.streamPart
    (request.fromTimestamp - bucketLookbackMs) request.toTimestamp
  if bucketIds.length = 0 then
    return []
  return (queries request).flatMap fun query ↦ data.select request.streamPart bucketIds query

/-- `StoredMessage`. -/
structure StoredMessage where
  payload : List UInt8
  storedAt : Option ℤ
  deriving DecidableEq

/-- `parseRow`. -/
def parseRow (row : DataRow) : Option StoredMessage :=
  match row.2.payload with
  | none => none
  | some payload => some ⟨payload, row.2.storedAt⟩

/-- `fetchRange`: the messages that the result stream pushes. -/
def fetchRange (options : BucketManagerOptions) (now : ℤ) (buckets : BucketTable)
    (data : StreamData) (request : RangeRequest) : Except String (List StoredMessage) := do
  let rows ← fetchRangeRows options now buckets data request
  return rows.filterMap parseRow

/-! ### What the stream should contain -/

/-- The row belongs to the stream part, matches the filters, and lies lexicographically between the
two ends of the range. -/
def InRange (request : RangeRequest) (key : DataKey) : Prop :=
  key.streamPart = request.streamPart ∧
    (request.fromTimestamp < key.timestamp ∨
      request.fromTimestamp = key.timestamp ∧ request.fromSequenceNo ≤ key.sequenceNo.val) ∧
    (key.timestamp < request.toTimestamp ∨
      key.timestamp = request.toTimestamp ∧ key.sequenceNo.val ≤ request.toSequenceNo) ∧
    matchesFilters request key = true

instance (request : RangeRequest) (key : DataKey) : Decidable (InRange request key) := by
  unfold InRange
  infer_instance

/-- Every row sits in a bucket of its stream part that is placed for its timestamp. -/
def WellPlaced (buckets : BucketTable) (data : StreamData) : Prop :=
  ∀ row ∈ data.entries, ∃ dateCreate columns,
    buckets.get? ⟨row.1.streamPart, dateCreate⟩ = some columns ∧ columns.id = row.1.bucketId ∧
      Placed buckets row.1.streamPart dateCreate row.1.timestamp

/-- On these tables the request streams exactly the rows of its range, each once, and pushes the
messages of those that have a payload. -/
def StreamsExactly (options : BucketManagerOptions) (now : ℤ) (buckets : BucketTable)
    (data : StreamData) (request : RangeRequest) : Prop :=
  ∃ rows, fetchRangeRows options now buckets data request = .ok rows ∧
    fetchRange options now buckets data request = .ok (rows.filterMap parseRow) ∧
    rows.Perm (data.entries.filter fun row ↦ InRange request row.1)

/-! ### Counting the queries that return a row -/

/-- The lexicographic range, without the stream part and the filters. -/
def Between (request : RangeRequest) (key : DataKey) : Prop :=
  (request.fromTimestamp < key.timestamp ∨
      request.fromTimestamp = key.timestamp ∧ request.fromSequenceNo ≤ key.sequenceNo.val) ∧
    (key.timestamp < request.toTimestamp ∨
      key.timestamp = request.toTimestamp ∧ key.sequenceNo.val ≤ request.toSequenceNo)

instance (request : RangeRequest) (key : DataKey) : Decidable (Between request key) := by
  unfold Between
  infer_instance

theorem inRange_iff {request : RangeRequest} {key : DataKey} : InRange request key ↔
    key.streamPart = request.streamPart ∧ Between request key ∧
      matchesFilters request key = true := by
  unfold InRange Between
  tauto

/-- The number of queries a row satisfies is the number of clauses it satisfies, or none when it
does not match the filters. -/
theorem countP_queries (request : RangeRequest) (key : DataKey) :
    ((queries request).countP fun query ↦ query key) =
      if matchesFilters request key then (rangeClauses request).countP fun clause ↦ clause key
      else 0 := by
  rw [queries, List.countP_map]
  split_ifs with hfilters
  · simp [Function.comp_def, hfilters]
  · simp [Function.comp_def, hfilters]

/-- The stream is exact when every row is returned by one query if it is in range and by none
otherwise. -/
theorem streamsExactly_iff {options : BucketManagerOptions} {now : ℤ} {buckets : BucketTable}
    {data : StreamData} {request : RangeRequest} {bucketIds : List BucketId}
    (hids : bucketIdsInRange options now buckets request.streamPart
      (request.fromTimestamp - bucketLookbackMs) request.toTimestamp = .ok bucketIds) :
    StreamsExactly options now buckets data request ↔ ∀ row ∈ data.entries,
      (if row.1.streamPart = request.streamPart ∧ row.1.bucketId ∈ bucketIds then
        (queries request).countP fun query ↦ query row.1 else 0) =
      if InRange request row.1 then 1 else 0 := by
  have hrows : fetchRangeRows options now buckets data request =
      .ok ((queries request).flatMap fun query ↦
        data.select request.streamPart bucketIds query) := by
    simp only [fetchRangeRows, hids, bind, Except.bind, pure, Except.pure]
    split_ifs with hempty
    · rw [List.eq_nil_of_length_eq_zero hempty]
      simp [StreamData.select]
    · rfl
  let clauses := (queries request).map fun query (row : DataRow) ↦
    decide (row.1.streamPart = request.streamPart ∧ row.1.bucketId ∈ bucketIds ∧
      query row.1 = true)
  have hunion : ((queries request).flatMap fun query ↦
      data.select request.streamPart bucketIds query) =
        clauses.flatMap fun clause ↦ data.entries.filter clause := by
    rw [List.flatMap_map]
    rfl
  have hcount : ∀ row : DataRow, (clauses.countP fun clause ↦ clause row) =
      if row.1.streamPart = request.streamPart ∧ row.1.bucketId ∈ bucketIds then
        (queries request).countP fun query ↦ query row.1 else 0 := by
    intro row
    rw [List.countP_map]
    split_ifs with hrow
    · simp [Function.comp_def, hrow.1, hrow.2]
    · simp only [Function.comp_def, ← and_assoc]
      simp [hrow]
  have hmessages : ∀ rows, fetchRangeRows options now buckets data request = .ok rows →
      fetchRange options now buckets data request = .ok (rows.filterMap parseRow) := by
    intro rows hok
    rw [fetchRange, hok]
    rfl
  have hexact : StreamsExactly options now buckets data request ↔
      ((queries request).flatMap fun query ↦
        data.select request.streamPart bucketIds query).Perm
          (data.entries.filter fun row ↦ InRange request row.1) := by
    constructor
    · rintro ⟨rows, hok, -, hperm⟩
      rwa [← Except.ok.inj (hrows.symm.trans hok)] at hperm
    · exact fun hperm ↦ ⟨_, hrows, hmessages _ hrows, hperm⟩
  rw [hexact, hunion, Selection.flatMap_filter_perm_iff data.nodup_entries]
  simp only [hcount, decide_eq_true_eq]

/-! ### When the stream is exact -/

/-- The sequence numbers exclude nothing, or the range ends in a later millisecond than it starts,
or no sequence number satisfies either bound. -/
def BoundariesSeparate (request : RangeRequest) : Prop :=
  (request.fromSequenceNo = minSequenceNumberValue ∧
      request.toSequenceNo = maxSequenceNumberValue) ∨
    request.fromTimestamp < request.toTimestamp ∨
    (maxSequenceNumberValue < request.fromSequenceNo ∧
      request.toSequenceNo < minSequenceNumberValue)

instance (request : RangeRequest) : Decidable (BoundariesSeparate request) := by
  unfold BoundariesSeparate
  infer_instance

/-- With separate boundaries the clauses are disjoint and cover the range. -/
theorem countP_rangeClauses {request : RangeRequest} (hseparate : BoundariesSeparate request)
    (key : DataKey) : ((rangeClauses request).countP fun clause ↦ clause key) =
      if Between request key then 1 else 0 := by
  obtain ⟨hmin, hmax⟩ := key.sequenceNo.property
  unfold BoundariesSeparate at hseparate
  by_cases hbetween : Between request key
  · rw [if_pos hbetween]
    unfold Between at hbetween
    unfold rangeClauses
    split_ifs with hall
    · simp only [List.countP_cons, List.countP_nil, decide_eq_true_eq]
      rw [if_pos (by omega)]
    · simp only [List.countP_cons, List.countP_nil, decide_eq_true_eq]
      split_ifs <;> omega
  · rw [if_neg hbetween]
    unfold Between at hbetween
    unfold rangeClauses
    split_ifs with hall
    · simp only [List.countP_cons, List.countP_nil, decide_eq_true_eq]
      rw [if_neg (by omega)]
    · simp only [List.countP_cons, List.countP_nil, decide_eq_true_eq]
      split_ifs <;> omega

/-- Without separate boundaries some row at or after the end of the range satisfies too many or too
few of the clauses: the one with the smallest number that satisfies the lower bound alone, or with
the largest one that satisfies the upper bound alone. -/
theorem exists_countP_rangeClauses_ne {request : RangeRequest}
    (hseparate : ¬ BoundariesSeparate request) :
    ∃ timestamp, request.toTimestamp ≤ timestamp ∧ ∃ sequenceNo : SequenceNumber,
      ∀ key : DataKey, key.timestamp = timestamp → key.sequenceNo = sequenceNo →
        ((rangeClauses request).countP fun clause ↦ clause key) ≠
          if Between request key then 1 else 0 := by
  unfold BoundariesSeparate at hseparate
  unfold rangeClauses minSequenceNumberValue maxSequenceNumberValue at *
  by_cases hlower : request.fromSequenceNo ≤ 2147483647
  · refine ⟨request.fromTimestamp, by omega, ⟨max request.fromSequenceNo 0, ?_⟩, ?_⟩
    · unfold minSequenceNumberValue maxSequenceNumberValue
      omega
    · intro key htimestamp hsequence
      have hvalue := congrArg Subtype.val hsequence
      simp only at hvalue
      rw [if_neg (by omega)]
      split_ifs with hbetween
      all_goals
        unfold Between at hbetween
        simp only [List.countP_cons, List.countP_nil, decide_eq_true_eq]
        split_ifs <;> omega
  · refine ⟨request.toTimestamp, le_rfl, ⟨min request.toSequenceNo 2147483647, ?_⟩, ?_⟩
    · unfold minSequenceNumberValue maxSequenceNumberValue
      omega
    · intro key htimestamp hsequence
      have hvalue := congrArg Subtype.val hsequence
      simp only at hvalue
      rw [if_neg (by omega)]
      split_ifs with hbetween
      all_goals
        unfold Between at hbetween
        simp only [List.countP_cons, List.countP_nil, decide_eq_true_eq]
        split_ifs <;> omega

/-- On well placed tables a request with separate boundaries streams exactly its range: the lookup
finds the bucket of every row in range, and one clause returns it. -/
theorem streamsExactly_of_boundariesSeparate {options : BucketManagerOptions} {now : ℤ}
    {buckets : BucketTable} {data : StreamData} {request : RangeRequest}
    (hplaced : WellPlaced buckets data) (hseparate : BoundariesSeparate request) :
    StreamsExactly options now buckets data request := by
  obtain ⟨bucketIds, hids, -⟩ := bucketIdsInRange_spec options now buckets request.streamPart
    (request.fromTimestamp - bucketLookbackMs) request.toTimestamp
  refine (streamsExactly_iff hids).mpr fun row hrow ↦ ?_
  rw [countP_queries, countP_rangeClauses hseparate]
  by_cases hrange : InRange request row.1
  · rw [if_pos hrange]
    obtain ⟨hpart, hbetween, hfilters⟩ := inRange_iff.mp hrange
    obtain ⟨dateCreate, columns, hbucket, hid, hwell⟩ := hplaced row hrow
    rw [hpart] at hbucket hwell
    have hfrom : request.fromTimestamp ≤ row.1.timestamp := by
      unfold Between at hbetween
      omega
    have hto : row.1.timestamp ≤ request.toTimestamp := by
      unfold Between at hbetween
      omega
    have hmem : row.1.bucketId ∈ bucketIds :=
      hid ▸ id_mem_bucketIdsInRange hids hbucket hwell hfrom hto
    rw [if_pos ⟨hpart, hmem⟩, if_pos hfilters, if_pos hbetween]
  · rw [if_neg hrange]
    split_ifs with hfound hfilters hbetween
    · exact absurd (inRange_iff.mpr ⟨hfound.1, hbetween, hfilters⟩) hrange
    all_goals rfl

/-- A table with one bucket. -/
def oneBucket (streamPart : StreamPart) (dateCreate : ℤ) (columns : BucketColumns) : BucketTable :=
  OrderedMap.empty.set ⟨streamPart, dateCreate⟩ columns

/-- The only bucket is placed for every timestamp from its date on. -/
theorem placed_oneBucket {streamPart : StreamPart} {dateCreate timestamp : ℤ}
    {columns : BucketColumns} (hle : dateCreate ≤ timestamp) :
    Placed (oneBucket streamPart dateCreate columns) streamPart dateCreate timestamp := by
  refine ⟨hle, fun other found hfound hlater ↦ ?_⟩
  have hne : (⟨streamPart, other⟩ : BucketKey) ≠ ⟨streamPart, dateCreate⟩ := fun heq ↦
    hlater.1.ne' (BucketKey.mk.inj heq).2
  rw [oneBucket, OrderedMap.get?_set_of_ne _ _ hne] at hfound
  cases hfound

/-- A lookup that ends at the date of the only bucket finds it. -/
theorem id_mem_oneBucket {options : BucketManagerOptions} {now : ℤ} {streamPart : StreamPart}
    {fromTimestamp dateCreate : ℤ} {columns : BucketColumns} {bucketIds : List BucketId}
    (hids : bucketIdsInRange options now (oneBucket streamPart dateCreate columns) streamPart
      (fromTimestamp - bucketLookbackMs) dateCreate = .ok bucketIds) :
    columns.id ∈ bucketIds := by
  have hrow : (oneBucket streamPart dateCreate columns).get? ⟨streamPart, dateCreate⟩ =
      some columns := OrderedMap.get?_set_self _ _ _
  obtain ⟨found, hfound, hmem⟩ := bucketIdsInRange_spec options now
    (oneBucket streamPart dateCreate columns) streamPart (fromTimestamp - bucketLookbackMs)
    dateCreate
  obtain rfl : bucketIds = found := Except.ok.inj (hids.symm.trans hfound)
  refine (hmem columns.id).mpr ⟨⟨dateCreate, columns⟩, rfl, ?_⟩
  rcases lt_or_ge (fromTimestamp - bucketLookbackMs) dateCreate with hlate | hearly
  · exact Or.inl (BucketTable.mem_select.mpr ⟨hrow, decide_eq_true ⟨hlate, le_rfl⟩⟩)
  · refine Or.inr ?_
    simp [BucketTable.newest?, BucketTable.select, BucketTable.rowOf, oneBucket, OrderedMap.set,
      OrderedMap.empty, hearly]

/-- A stream part for the trace below. -/
def samplePart : StreamPart := ⟨"stream", 0, stream_ne⟩

/-- The row with the given sequence number at time 1000. -/
def sampleRow (sequenceNo : SequenceNumber) : DataRow :=
  (⟨samplePart, "bucket", 1000, sequenceNo, "publisher", "chain"⟩, ⟨some [1], none⟩)

/-- Two messages of one millisecond, numbered zero and one. -/
def sampleData : StreamData where
  entries := [sampleRow ⟨0, by decide⟩, sampleRow ⟨1, by decide⟩]
  nodup_keys := by decide

/-- The request for the messages of that millisecond numbered one and two. -/
def sampleRequest : RangeRequest where
  streamPart := samplePart
  fromTimestamp := 1000
  fromSequenceNo := 1
  toTimestamp := 1000
  toSequenceNo := 2
  publisherId := none
  msgChainId := none

end PomboStorageNode.Storage.FetchRange
