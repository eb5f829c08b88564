import PomboStorageNode.Storage.Tables

/-!
# Buckets and the queries that load them

`Bucket.ts` is the counter of one bucket in memory: how many records and bytes went to it, when it
may be forgotten (`ttl`), and whether the database has its present counters (`stored`). What its
constructor refuses cannot be written down here: sizes are natural numbers, and the positive limits
are a field of the options. `getBucketsByTimestamp` and `getLastBuckets` of `BucketManager.ts` load
buckets from the table. `bucketIdsInRange_spec` says which ids a range lookup finds: those dated in
the range, and that of the newest bucket dated at or before its start. A row whose bucket is
`Placed` is found by every lookup over its timestamp (`id_mem_bucketIdsInRange`).
-/

set_option autoImplicit false

namespace PomboStorageNode.Storage

open Library Tables

/-! ### The options of the bucket manager -/

/-- The fields of `BucketManagerOptions` that decide about buckets, with the signs that the
constructor of `Bucket` asks for. -/
structure BucketManagerOptions where
  maxBucketSize : ℕ
  maxBucketRecords : ℕ
  bucketKeepAliveSeconds : ℕ
  maxBucketSize_pos : 0 < maxBucketSize
  maxBucketRecords_pos : 0 < maxBucketRecords
  bucketKeepAliveSeconds_pos : 0 < bucketKeepAliveSeconds

/-- `defaultOptions`. -/
def defaultBucketManagerOptions : BucketManagerOptions where
  maxBucketSize := 1024 * 1024 * 100
  maxBucketRecords := 500 * 1000
  bucketKeepAliveSeconds := 60
  maxBucketSize_pos := by decide
  maxBucketRecords_pos := by decide
  bucketKeepAliveSeconds_pos := by decide

/-! ### One bucket -/

/-- `Bucket`. -/
structure Bucket where
  id : BucketId
  streamPart : StreamPart
  size : ℕ
  records : ℕ
  dateCreate : ℤ
  maxSize : ℕ
  maxRecordCount : ℕ
  keepAliveSeconds : ℕ
  ttl : ℤ
  stored : Bool
  deriving DecidableEq

namespace Bucket

/-- The time to live of a bucket that is touched at `now`. -/
def updatedTtl (keepAliveSeconds : ℕ) (now : ℤ) : ℤ :=
  now + 1000 * keepAliveSeconds

/-- The constructor, at the clock value `now`. -/
def create (options : BucketManagerOptions) (now : ℤ) (id : BucketId)
    (streamPart : StreamPart) (size records : ℕ) (dateCreate : ℤ) : Bucket where
  id := id
  streamPart := streamPart
  size := size
  records := records
  dateCreate := dateCreate
  maxSize := options.maxBucketSize
  maxRecordCount := options.maxBucketRecords
  keepAliveSeconds := options.bucketKeepAliveSeconds
  ttl := updatedTtl options.bucketKeepAliveSeconds now
  stored := false

/-- `checkSize`, with both sides of each comparison multiplied by one hundred. -/
def checkSize (bucket : Bucket) (percentDeduction : ℕ) : Bool :=
  bucket.maxSize * (100 - percentDeduction) ≤ 100 * bucket.size ∨
    bucket.maxRecordCount * (100 - percentDeduction) ≤ 100 * bucket.records

/-- `isAlmostFull` with its default deduction. -/
def isAlmostFull (bucket : Bucket) : Bool := bucket.checkSize 30

/-- `incrementBucket`, at the clock value `now`. -/
def incrementBucket (bucket : Bucket) (size : ℕ) (now : ℤ) : Bucket :=
  { bucket with
    size := bucket.size + size
    records := bucket.records + 1
    stored := false
    ttl := updatedTtl bucket.keepAliveSeconds now }

/-- `setStored`. -/
def setStored (bucket : Bucket) : Bucket := { bucket with stored := true }

/-- `isAlive`, at the clock value `now`. -/
def isAlive (bucket : Bucket) (now : ℤ) : Bool := now ≤ bucket.ttl

end Bucket

/-! ### Loading buckets -/

namespace BucketManager

variable (options : BucketManagerOptions) (now : ℤ)

/-- The bucket that `getBucketsFromDatabase` makes of a row. -/
def bucketOfRow (streamPart : StreamPart) (row : BucketRow) : Bucket :=
  Bucket.create options now row.columns.id streamPart row.columns.size row.columns.records
    row.dateCreate

/-- `getBucketsFromDatabase`, on the rows that the query returned. -/
def getBucketsFromDatabase (streamPart : StreamPart) (rows : List BucketRow) : List Bucket :=
  rows.map (bucketOfRow options now streamPart)

/-- `getExplicitFirst`: the newest bucket dated at or before the start of the range. -/
def getExplicitFirst (table : BucketTable) (streamPart : StreamPart) (fromTimestamp : ℤ) :
    List Bucket :=
  getBucketsFromDatabase options now streamPart
    ((table.select streamPart fun date ↦ date ≤ fromTimestamp).take 1)

/-- `getRest`: the buckets dated in the range, which one of the bounds may leave open. -/
def getRest (table : BucketTable) (streamPart : StreamPart) :
    Option ℤ → Option ℤ → Except String (List Bucket)
  | some fromTimestamp, some toTimestamp =>
    .ok (getBucketsFromDatabase options now streamPart
      (table.select streamPart fun date ↦ fromTimestamp < date ∧ date ≤ toTimestamp))
  | some fromTimestamp, none =>
    .ok (getBucketsFromDatabase options now streamPart
      (table.select streamPart fun date ↦ fromTimestamp < date))
  | none, some toTimestamp =>
    .ok (getBucketsFromDatabase options now streamPart
      (table.select streamPart fun date ↦ date ≤ toTimestamp))
  | none, none => .error
      "Not correct combination of fromTimestamp (undefined) and toTimestamp (undefined)"

/-- `getBucketsByTimestamp`. -/
def getBucketsByTimestamp (table : BucketTable) (streamPart : StreamPart)
    (fromTimestamp toTimestamp : Option ℤ) : Except String (List Bucket) :=
  match fromTimestamp with
  | some start => do
    let first := getExplicitFirst options now table streamPart start
    let rest ← getRest options now table streamPart (some start) toTimestamp
    return rest ++ first
  | none => getRest options now table streamPart none toTimestamp

/-- `getLastBuckets`. A timestamp that is zero counts as absent, like one that is not given. -/
def getLastBuckets (table : BucketTable) (streamPart : StreamPart) (limit : ℕ)
    (timestamp : Option ℤ) : List Bucket :=
  match timestamp with
  | some bound =>
    if bound ≠ 0 then
      getBucketsFromDatabase options now streamPart
        ((table.select streamPart fun date ↦ date ≤ bound).take limit)
    else
      getBucketsFromDatabase options now streamPart ((table.select streamPart fun _ ↦ true).take limit)
  | none =>
    getBucketsFromDatabase options now streamPart ((table.select streamPart fun _ ↦ true).take limit)

/-- The ids that a lookup over a range finds: `bucketsToIds` of `getBucketsByTimestamp`. -/
def bucketIdsInRange (table : BucketTable) (streamPart : StreamPart)
    (fromTimestamp toTimestamp : ℤ) : Except String (List BucketId) := do
  let buckets ← getBucketsByTimestamp options now table streamPart (some fromTimestamp)
    (some toTimestamp)
  return buckets.map Bucket.id

variable {options now}

/-- The `WHERE` clause on the date in `getLastBuckets`. -/
def lastBucketsClause (timestamp : Option ℤ) (date : ℤ) : Bool :=
  match timestamp with
  | some bound => bound ≠ 0 → date ≤ bound
  | none => true

/-- `getLastBuckets` with the limit one loads the newest bucket that its clause allows. -/
theorem head?_getLastBuckets (table : BucketTable) (streamPart : StreamPart)
    (timestamp : Option ℤ) : (getLastBuckets options now table streamPart 1 timestamp).head? =
      (table.newest? streamPart (lastBucketsClause timestamp)).map
        (bucketOfRow options now streamPart) := by
  have htake : ∀ rows : List BucketRow,
      (getBucketsFromDatabase options now streamPart (rows.take 1)).head? =
        rows.head?.map (bucketOfRow options now streamPart) := by
    rintro (_ | ⟨row, rows⟩) <;> rfl
  cases timestamp with
  | none => exact htake _
  | some bound =>
    by_cases hbound : bound = 0
    · have hclause : lastBucketsClause (some bound) = fun _ ↦ true := by
        funext date
        exact decide_eq_true fun hne ↦ absurd hbound hne
      rw [getLastBuckets, if_neg (not_not.mpr hbound), htake, hclause, BucketTable.newest?]
    · have hclause : lastBucketsClause (some bound) = fun date ↦ decide (date ≤ bound) := by
        funext date
        exact decide_eq_decide.mpr (imp_iff_right hbound)
      rw [getLastBuckets, if_pos hbound, htake, hclause, BucketTable.newest?]

/-- A lookup over a range with both bounds always succeeds, and finds the ids of the buckets dated
in the range and of the newest bucket dated at or before its start. -/
theorem bucketIdsInRange_spec (options : BucketManagerOptions) (now : ℤ)
    (table : BucketTable) (streamPart : StreamPart) (fromTimestamp toTimestamp : ℤ) :
    ∃ bucketIds, bucketIdsInRange options now table streamPart fromTimestamp toTimestamp =
        .ok bucketIds ∧
      ∀ bucketId, bucketId ∈ bucketIds ↔ ∃ row : BucketRow, row.columns.id = bucketId ∧
        ((row ∈ table.select streamPart fun date ↦ fromTimestamp < date ∧ date ≤ toTimestamp) ∨
          table.newest? streamPart (fun date ↦ date ≤ fromTimestamp) = some row) := by
  refine ⟨_, rfl, fun bucketId ↦ ?_⟩
  simp only [getExplicitFirst, getBucketsFromDatabase, List.map_append, List.map_map,
    List.mem_append, List.mem_map, Function.comp_apply, bucketOfRow, Bucket.create,
    BucketTable.newest?]
  constructor
  · rintro (⟨row, hrow, rfl⟩ | ⟨row, hrow, rfl⟩)
    · exact ⟨row, rfl, Or.inl hrow⟩
    · refine ⟨row, rfl, Or.inr ?_⟩
      rw [List.take_one] at hrow
      exact Option.mem_toList.mp hrow
  · rintro ⟨row, rfl, hrow | hrow⟩
    · exact Or.inl ⟨row, hrow, rfl⟩
    · refine Or.inr ⟨row, ?_, rfl⟩
      rw [List.take_one]
      exact Option.mem_toList.mpr hrow

/-- What a lookup finds is in the table. -/
theorem get?_of_mem_bucketIdsInRange {table : BucketTable} {streamPart : StreamPart}
    {fromTimestamp toTimestamp : ℤ} {bucketIds : List BucketId} {bucketId : BucketId}
    (hids : bucketIdsInRange options now table streamPart fromTimestamp toTimestamp =
      .ok bucketIds) (hmem : bucketId ∈ bucketIds) :
    ∃ date columns, table.get? ⟨streamPart, date⟩ = some columns ∧ columns.id = bucketId := by
  obtain ⟨found, hfound, hspec⟩ := bucketIdsInRange_spec options now table streamPart
    fromTimestamp toTimestamp
  obtain rfl : bucketIds = found := Except.ok.inj (hids.symm.trans hfound)
  obtain ⟨row, hid, hrow⟩ := (hspec bucketId).mp hmem
  refine ⟨row.dateCreate, row.columns, ?_, hid⟩
  rcases hrow with hselected | hnewest
  · exact (BucketTable.mem_select.mp hselected).1
  · exact (BucketTable.mem_select.mp (BucketTable.newest?_eq_some hnewest).1).1

/-! ### Where the rows of a timestamp are looked for -/

/-- `BUCKET_LOOKBACK_MS`. -/
def bucketLookbackMs : ℤ := 10 * 60 * 1000

/-- The bucket of the given date is where the reads look for rows with the given timestamp: it
starts no later than the timestamp, and no bucket of the stream part starts after it and still a
whole lookback before the timestamp. -/
def Placed (table : BucketTable) (streamPart : StreamPart) (dateCreate timestamp : ℤ) :
    Prop :=
  dateCreate ≤ timestamp ∧ ∀ other columns,
    table.get? ⟨streamPart, other⟩ = some columns →
      ¬ (dateCreate < other ∧ other ≤ timestamp - bucketLookbackMs)

/-- A lookup over a range that contains a timestamp, with the lookback taken off its start, finds
the bucket where the rows of the timestamp are placed.
Assumes: the timestamp is in the range, and its bucket is in the table and placed. -/
theorem id_mem_bucketIdsInRange {table : BucketTable} {streamPart : StreamPart}
    {dateCreate timestamp fromTimestamp toTimestamp : ℤ} {columns : BucketColumns}
    {bucketIds : List BucketId}
    (hids : bucketIdsInRange options now table streamPart (fromTimestamp - bucketLookbackMs)
      toTimestamp = .ok bucketIds)
    (hrow : table.get? ⟨streamPart, dateCreate⟩ = some columns)
    (hplaced : Placed table streamPart dateCreate timestamp)
    (hfrom : fromTimestamp ≤ timestamp) (hto : timestamp ≤ toTimestamp) :
    columns.id ∈ bucketIds := by
  obtain ⟨found, hfound, hmem⟩ := bucketIdsInRange_spec options now table streamPart
    (fromTimestamp - bucketLookbackMs) toTimestamp
  obtain rfl : bucketIds = found := Except.ok.inj (hids.symm.trans hfound)
  refine (hmem columns.id).mpr ⟨⟨dateCreate, columns⟩, rfl, ?_⟩
  rcases lt_or_ge (fromTimestamp - bucketLookbackMs) dateCreate with hlate | hearly
  · refine Or.inl (BucketTable.mem_select.mpr ⟨hrow, ?_⟩)
    exact decide_eq_true ⟨hlate, hplaced.1.trans hto⟩
  · -- no bucket starts between this one and the start of the lookup, so this one is the newest
    refine Or.inr ?_
    cases hnewest : table.newest? streamPart fun date ↦ date ≤ fromTimestamp - bucketLookbackMs with
    | none =>
      have hnone := BucketTable.newest?_eq_none.mp hnewest dateCreate columns hrow
      exact absurd hearly (of_decide_eq_false hnone)
    | some row =>
      obtain ⟨hselected, hmax⟩ := BucketTable.newest?_eq_some hnewest
      obtain ⟨hget, hclause⟩ := BucketTable.mem_select.mp hselected
      have hle : dateCreate ≤ row.dateCreate :=
        hmax ⟨dateCreate, columns⟩ (BucketTable.mem_select.mpr ⟨hrow, decide_eq_true hearly⟩)
      have hnotLater := hplaced.2 row.dateCreate row.columns hget
      have hbound := of_decide_eq_true hclause
      have hdate : row.dateCreate = dateCreate := by
        by_contra hne
        exact hnotLater ⟨lt_of_le_of_ne hle (Ne.symm hne), by omega⟩
      rw [hdate, hrow, Option.some.injEq] at hget
      rw [Option.some.injEq, BucketRow.mk.injEq]
      exact ⟨hdate, hget.symm⟩

end BucketManager

end PomboStorageNode.Storage
