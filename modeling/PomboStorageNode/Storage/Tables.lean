import PomboStorageNode.Library.OrderedMap
import Mathlib.Algebra.Group.Nat.Defs
import Mathlib.Data.Int.Order.Basic
import Mathlib.Data.List.Sort

/-!
# The tables of the keyspace

`init.cql` declares two tables. `bucket` has the primary key `(stream_id, partition, date_create)`:
the id of a bucket is a plain column, so two buckets of one stream part with the same creation date
share a row. `stream_data` has the primary key
`(stream_id, partition, bucket_id, ts, sequence_no, publisher_id, msg_chain_id)`. Both are maps
from their keys, which is what a primary key means; times are milliseconds since the epoch.

A `SELECT` on `bucket` returns rows of one stream part, newest creation date first
(`BucketTable.select`); `mem_select`, `pairwise_select` and `newest?_spec` are all that later proofs
use of it. A `SELECT` on `stream_data` returns the rows that satisfy its `WHERE` clause
(`StreamData.select`).
-/

set_option autoImplicit false

namespace PomboStorageNode.Storage.Tables

open Library

/-! ### Columns -/

/-- The id of a bucket, the text of a time UUID. -/
abbrev BucketId := String

/-- A stream partition. The stream id is never the empty text and the partition never negative:
the constructor of `Bucket` refuses both. -/
structure StreamPart where
  streamId : String
  partition : ℕ
  streamId_ne : streamId ≠ ""
  deriving DecidableEq

/-- `MIN_SEQUENCE_NUMBER_VALUE`. -/
def minSequenceNumberValue : ℤ := 0

/-- `MAX_SEQUENCE_NUMBER_VALUE`, the largest value of an `int` column. -/
def maxSequenceNumberValue : ℤ := 2147483647

/-- The sequence number of a stored message: not negative, and an `int` column holds it. -/
abbrev SequenceNumber :=
  {value : ℤ // minSequenceNumberValue ≤ value ∧ value ≤ maxSequenceNumberValue}

theorem zero_sequenceNumber : minSequenceNumberValue ≤ 0 ∧ 0 ≤ maxSequenceNumberValue := by decide

theorem stream_ne : "stream" ≠ "" := by decide

/-- The value of an `int` computation: 32 bits, in two's complement. -/
def toInt32 (value : ℤ) : ℤ :=
  value.bmod (2 ^ 32)

/-! ### The bucket table -/

/-- The primary key of `bucket`. -/
structure BucketKey where
  streamPart : StreamPart
  dateCreate : ℤ
  deriving DecidableEq

/-- The other columns of `bucket`. -/
structure BucketColumns where
  id : BucketId
  records : ℕ
  size : ℕ
  deriving DecidableEq

/-- The table `bucket`. -/
abbrev BucketTable := OrderedMap BucketKey BucketColumns

/-- A row of `bucket`, as a `SELECT` on one stream part returns it. -/
structure BucketRow where
  dateCreate : ℤ
  columns : BucketColumns
  deriving DecidableEq

namespace BucketTable

/-- The row of a key, if the stream part is the given one and its date satisfies the clause. -/
def rowOf (streamPart : StreamPart) (clause : ℤ → Bool)
    (entry : BucketKey × BucketColumns) : Option BucketRow :=
  if entry.1.streamPart = streamPart ∧ clause entry.1.dateCreate = true then
    some ⟨entry.1.dateCreate, entry.2⟩
  else none

/-- `SELECT * FROM bucket WHERE stream_id = ? AND partition = ? AND clause ORDER BY date_create
DESC`. -/
def select (table : BucketTable) (streamPart : StreamPart) (clause : ℤ → Bool) :
    List BucketRow :=
  (table.entries.filterMap (rowOf streamPart clause)).insertionSort
    fun first second ↦ second.dateCreate ≤ first.dateCreate

/-- `select` with `LIMIT 1`. -/
def newest? (table : BucketTable) (streamPart : StreamPart) (clause : ℤ → Bool) :
    Option BucketRow :=
  (table.select streamPart clause).head?

theorem rowOf_eq_some {streamPart : StreamPart} {clause : ℤ → Bool}
    {entry : BucketKey × BucketColumns} {row : BucketRow} :
    rowOf streamPart clause entry = some row ↔
      entry = (⟨streamPart, row.dateCreate⟩, row.columns) ∧ clause row.dateCreate = true := by
  obtain ⟨⟨part, date⟩, columns⟩ := entry
  obtain ⟨rowDate, rowColumns⟩ := row
  unfold rowOf
  split_ifs with hrow
  · obtain ⟨rfl, hclause⟩ := hrow
    simp only [Option.some.injEq, BucketRow.mk.injEq, Prod.mk.injEq, BucketKey.mk.injEq, true_and]
    constructor
    · rintro ⟨rfl, rfl⟩
      exact ⟨⟨rfl, rfl⟩, hclause⟩
    · exact fun hand ↦ hand.1
  · simp only [Prod.mk.injEq, BucketKey.mk.injEq, false_iff, not_and, and_imp]
    rintro rfl rfl - hclause
    exact hrow ⟨rfl, hclause⟩

/-- A `SELECT` returns exactly the rows of the stream part whose date satisfies the clause. -/
theorem mem_select {table : BucketTable} {streamPart : StreamPart} {clause : ℤ → Bool}
    {row : BucketRow} : row ∈ table.select streamPart clause ↔
      table.get? ⟨streamPart, row.dateCreate⟩ = some row.columns ∧
        clause row.dateCreate = true := by
  rw [select, List.mem_insertionSort, List.mem_filterMap, OrderedMap.get?_eq_some_iff]
  constructor
  · rintro ⟨entry, hentry, hrow⟩
    obtain ⟨rfl, hclause⟩ := rowOf_eq_some.mp hrow
    exact ⟨hentry, hclause⟩
  · rintro ⟨hentry, hclause⟩
    exact ⟨_, hentry, rowOf_eq_some.mpr ⟨rfl, hclause⟩⟩

/-- The rows come newest first. -/
theorem pairwise_select (table : BucketTable) (streamPart : StreamPart)
    (clause : ℤ → Bool) : (table.select streamPart clause).Pairwise
      fun first second ↦ second.dateCreate ≤ first.dateCreate := by
  have : Std.Total fun first second : BucketRow ↦ second.dateCreate ≤ first.dateCreate :=
    ⟨fun first second ↦ le_total second.dateCreate first.dateCreate⟩
  have : IsTrans BucketRow fun first second ↦ second.dateCreate ≤ first.dateCreate :=
    ⟨fun _ _ _ hfirst hsecond ↦ le_trans hsecond hfirst⟩
  exact List.pairwise_insertionSort _ _

/-- `LIMIT 1` returns a newest row. -/
theorem newest?_eq_some {table : BucketTable} {streamPart : StreamPart}
    {clause : ℤ → Bool} {row : BucketRow}
    (hnewest : table.newest? streamPart clause = some row) :
    row ∈ table.select streamPart clause ∧
      ∀ other ∈ table.select streamPart clause, other.dateCreate ≤ row.dateCreate := by
  unfold newest? at hnewest
  have hsorted := pairwise_select table streamPart clause
  cases hselect : table.select streamPart clause with
  | nil =>
    rw [hselect] at hnewest
    cases hnewest
  | cons first rest =>
    rw [hselect, List.head?_cons, Option.some.injEq] at hnewest
    subst hnewest
    refine ⟨List.mem_cons_self, fun other hother ↦ ?_⟩
    rw [hselect] at hsorted
    rcases List.mem_cons.mp hother with rfl | hrest
    · exact le_rfl
    · exact List.rel_of_pairwise_cons hsorted hrest

/-- `LIMIT 1` returns nothing exactly when no row satisfies the clause. -/
theorem newest?_eq_none {table : BucketTable} {streamPart : StreamPart}
    {clause : ℤ → Bool} :
    table.newest? streamPart clause = none ↔ ∀ date columns,
      table.get? ⟨streamPart, date⟩ = some columns → clause date = false := by
  rw [newest?, List.head?_eq_none_iff, List.eq_nil_iff_forall_not_mem]
  constructor
  · intro hempty date columns hrow
    by_contra hclause
    exact hempty ⟨date, columns⟩ (mem_select.mpr ⟨hrow, by simpa using hclause⟩)
  · intro hnone row hrow
    obtain ⟨hget, hclause⟩ := mem_select.mp hrow
    rw [hnone _ _ hget] at hclause
    cases hclause

end BucketTable

/-! ### The data table -/

/-- The primary key of `stream_data`. -/
structure DataKey where
  streamPart : StreamPart
  bucketId : BucketId
  timestamp : ℤ
  sequenceNo : SequenceNumber
  publisherId : String
  msgChainId : String
  deriving DecidableEq

/-- The other columns of `stream_data`; both can be null. -/
structure DataColumns where
  payload : Option (List UInt8)
  storedAt : Option ℤ
  deriving DecidableEq

/-- The table `stream_data`. -/
abbrev StreamData := OrderedMap DataKey DataColumns

/-- A row of `stream_data`. -/
abbrev DataRow := DataKey × DataColumns

/-- `SELECT ... FROM stream_data WHERE stream_id = ? AND partition = ? AND bucket_id IN ? AND
clause`. -/
def StreamData.select (table : StreamData) (streamPart : StreamPart) (bucketIds : List BucketId)
    (clause : DataKey → Bool) : List DataRow :=
  table.entries.filter fun row ↦
    row.1.streamPart = streamPart ∧ row.1.bucketId ∈ bucketIds ∧ clause row.1 = true

theorem StreamData.mem_select {table : StreamData} {streamPart : StreamPart}
    {bucketIds : List BucketId} {clause : DataKey → Bool} {row : DataRow} :
    row ∈ table.select streamPart bucketIds clause ↔ row ∈ table.entries ∧
      row.1.streamPart = streamPart ∧ row.1.bucketId ∈ bucketIds ∧ clause row.1 = true := by
  rw [select, List.mem_filter, decide_eq_true_eq]

end PomboStorageNode.Storage.Tables
