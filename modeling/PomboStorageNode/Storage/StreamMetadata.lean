import PomboStorageNode.Storage.Tables
import Mathlib.Algebra.Group.Action.Defs
import Mathlib.Algebra.GroupWithZero.Nat
import Mathlib.Algebra.Order.BigOperators.Group.List
import Mathlib.Algebra.Order.Group.Nat

/-!
# The metadata of a stream part

The endpoint for metadata reports how many bytes and messages a stream part has, and the timestamps
of its first and last message. The two totals are sums over the rows of the bucket table, computed
by the database in columns of 32 bits (`selectSum_eq`). `getNumberOfMessagesInStream` takes the
result as it is. `getTotalBytesInStream` takes a negative one for an overflow and adds up the rows
itself, as many as a page has; an overflow by another half turn is not negative any more.
`totals_exact_iff` says which totals come out right.
-/

set_option autoImplicit false

namespace PomboStorageNode.Storage.StreamMetadata

open Library Tables

/-! ### The queries for the totals -/

/-- The page size of the driver for queries that set none. The `rows` of a result are those of its
first page. -/
def defaultFetchSize : ℕ := 5000

/-- `SELECT SUM(column) AS count FROM bucket WHERE stream_id = ? AND partition = ?`: one row, with
the sum in an `int`. -/
def selectSum (table : BucketTable) (streamPart : StreamPart) (column : BucketColumns → ℕ) :
    List ℤ :=
  [(table.select streamPart fun _ ↦ true).foldl
    (fun count row ↦ toInt32 (count + column row.columns)) 0]

/-- `SELECT size FROM bucket WHERE stream_id = ? AND partition = ?`. -/
def selectSizes (table : BucketTable) (streamPart : StreamPart) : List ℕ :=
  ((table.select streamPart fun _ ↦ true).take defaultFetchSize).map fun row ↦ row.columns.size

/-- `getNumberOfMessagesInStream`. -/
def getNumberOfMessagesInStream (table : BucketTable) (streamPart : StreamPart) : ℤ :=
  match selectSum table streamPart BucketColumns.records with
  | [count] => count
  | _ => 0

/-- `getTotalBytesInStream`. The sum over a page is below `2 ^ 53` (`sum_selectSizes_lt`), so that
the additions are exact. -/
def getTotalBytesInStream (table : BucketTable) (streamPart : StreamPart) : ℤ :=
  match selectSum table streamPart BucketColumns.size with
  | [count] =>
    -- Cassandra's integer has overflown, calculate fetching row by row
    if count < 0 then ((selectSizes table streamPart).foldl (fun count size ↦ count + size) 0 : ℕ)
    else count
  | _ => 0

/-! ### The queries for the first and the last message -/

/-- `ASC` and `DESC`. -/
inductive SortOrder
  | asc
  | desc

namespace SortOrder

/-- The first value comes no later than the second in the order. -/
def Precedes : SortOrder → ℤ → ℤ → Prop
  | .asc, first, second => first ≤ second
  | .desc, first, second => second ≤ first

instance (order : SortOrder) (first second : ℤ) : Decidable (order.Precedes first second) := by
  cases order <;> exact inferInstanceAs (Decidable (_ ≤ _))

/-- `SELECT id FROM bucket WHERE stream_id = ? AND partition = ? ORDER BY date_create ... LIMIT 1`.
-/
def bucket? (order : SortOrder) (table : BucketTable) (streamPart : StreamPart) :
    Option BucketRow :=
  match order with
  | .asc => (table.select streamPart fun _ ↦ true).getLast?
  | .desc => (table.select streamPart fun _ ↦ true).head?

/-- `ORDER BY ts ... LIMIT 1`. -/
def timestamp? (order : SortOrder) (timestamps : List ℤ) : Option ℤ :=
  match order with
  | .asc => timestamps.min?
  | .desc => timestamps.max?

end SortOrder

/-- The two functions below: the first timestamp in the first bucket. -/
def getMessageTimestampInStream (order : SortOrder) (table : BucketTable) (data : StreamData)
    (streamPart : StreamPart) : ℤ :=
  match order.bucket? table streamPart with
  | none => 0
  | some bucket =>
    match order.timestamp? ((data.select streamPart [bucket.columns.id] fun _ ↦ true).map
      fun row ↦ row.1.timestamp) with
    | none => 0
    | some timestamp => timestamp

/-- `getFirstMessageTimestampInStream`. -/
def getFirstMessageTimestampInStream (table : BucketTable) (data : StreamData)
    (streamPart : StreamPart) : ℤ :=
  getMessageTimestampInStream .asc table data streamPart

/-- `getLastMessageTimestampInStream`. -/
def getLastMessageTimestampInStream (table : BucketTable) (data : StreamData)
    (streamPart : StreamPart) : ℤ :=
  getMessageTimestampInStream .desc table data streamPart

/-! ### When the totals are exact -/

variable {table : BucketTable} {streamPart : StreamPart}

/-- The sum of a column over the buckets of a stream part. -/
def total (table : BucketTable) (streamPart : StreamPart) (column : BucketColumns → ℕ) : ℕ :=
  ((table.select streamPart fun _ ↦ true).map fun row ↦ column row.columns).sum

theorem toInt32_natCast_eq_self_iff (value : ℕ) : toInt32 value = value ↔ value < 2 ^ 31 := by
  unfold toInt32
  rw [Int.bmod_def]
  split_ifs <;> omega

theorem toInt32_natCast_neg_iff (value : ℕ) : toInt32 value < 0 ↔ 2 ^ 31 ≤ value % 2 ^ 32 := by
  unfold toInt32
  rw [Int.bmod_def]
  split_ifs <;> omega

/-- Wrapping around at every addition is wrapping around once. -/
theorem foldl_toInt32 {Row : Type} (column : Row → ℕ) (rows : List Row) : ∀ count : ℕ,
    rows.foldl (fun count row ↦ toInt32 (count + column row)) (toInt32 count) =
      toInt32 ((count + (rows.map column).sum : ℕ) : ℤ) := by
  induction rows with
  | nil =>
    intro count
    rw [List.foldl_nil, List.map_nil, List.sum_nil, Nat.add_zero]
  | cons row rows ih =>
    intro count
    have hwrap : toInt32 (toInt32 count + column row) = toInt32 ((count + column row : ℕ) : ℤ) := by
      rw [toInt32, toInt32, toInt32, Int.bmod_add_bmod, Int.natCast_add]
    rw [List.foldl_cons, hwrap, ih, List.map_cons, List.sum_cons, Nat.add_assoc]

theorem selectSum_eq (column : BucketColumns → ℕ) :
    selectSum table streamPart column = [toInt32 (total table streamPart column)] := by
  have hfold := foldl_toInt32 (fun row : BucketRow ↦ column row.columns)
    (table.select streamPart fun _ ↦ true) 0
  rw [Nat.zero_add] at hfold
  exact congrArg (fun count ↦ [count]) hfold

/-- The partial sums over a page are numbers that doubles represent.
Assumes: the column is an `int`. -/
theorem sum_selectSizes_lt
    (hint : ∀ row ∈ table.select streamPart fun _ ↦ true, row.columns.size < 2 ^ 31) :
    (selectSizes table streamPart).sum < 2 ^ 53 := by
  have hbound : ∀ size ∈ selectSizes table streamPart, size ≤ 2 ^ 31 := by
    intro size hsize
    obtain ⟨row, hrow, rfl⟩ := List.mem_map.mp hsize
    exact (hint row (List.mem_of_mem_take hrow)).le
  have hlength : (selectSizes table streamPart).length ≤ defaultFetchSize := by
    rw [selectSizes, List.length_map]
    exact List.length_take_le _ _
  have hsum := List.sum_le_card_nsmul _ _ hbound
  rw [smul_eq_mul] at hsum
  calc (selectSizes table streamPart).sum ≤ (selectSizes table streamPart).length * 2 ^ 31 := hsum
    _ ≤ defaultFetchSize * 2 ^ 31 := Nat.mul_le_mul_right _ hlength
    _ < 2 ^ 53 := by decide

/-- A page has the whole sum if and only if the other rows are empty buckets. -/
theorem sum_selectSizes_eq_total_iff :
    (selectSizes table streamPart).sum = total table streamPart BucketColumns.size ↔
      ∀ row ∈ (table.select streamPart fun _ ↦ true).drop defaultFetchSize,
        row.columns.size = 0 := by
  have hsplit := congrArg (fun rows ↦ (rows.map fun row : BucketRow ↦ row.columns.size).sum)
    (List.take_append_drop defaultFetchSize (table.select streamPart fun _ ↦ true))
  simp only [List.map_append, List.sum_append] at hsplit
  rw [selectSizes, total, ← hsplit, eq_comm, Nat.add_eq_left,
    List.sum_eq_zero_iff_forall_eq_nat, List.forall_mem_map]

/-- The number of messages is exact if and only if it is below `2 ^ 31`; the number of bytes is
exact if and only if it is below `2 ^ 31`, or its remainder by `2 ^ 32` is not, so that the overflow
shows, and the buckets behind the first page are empty. -/
theorem totals_exact_iff (table : BucketTable) (streamPart : StreamPart) :
    (getNumberOfMessagesInStream table streamPart =
        total table streamPart BucketColumns.records ↔
      total table streamPart BucketColumns.records < 2 ^ 31) ∧
    (getTotalBytesInStream table streamPart = total table streamPart BucketColumns.size ↔
      total table streamPart BucketColumns.size < 2 ^ 31 ∨
        2 ^ 31 ≤ total table streamPart BucketColumns.size % 2 ^ 32 ∧
          ∀ row ∈ (table.select streamPart fun _ ↦ true).drop defaultFetchSize,
            row.columns.size = 0) := by
  constructor
  · simp only [getNumberOfMessagesInStream, selectSum_eq]
    exact toInt32_natCast_eq_self_iff _
  · simp only [getTotalBytesInStream, selectSum_eq]
    rw [← sum_selectSizes_eq_total_iff]
    split_ifs with hnegative
    · rw [toInt32_natCast_neg_iff] at hnegative
      rw [← List.sum_eq_foldl]
      omega
    · rw [toInt32_natCast_eq_self_iff]
      rw [toInt32_natCast_neg_iff] at hnegative
      omega

/-! ### What the queries for the ends return -/

namespace SortOrder

variable {order : SortOrder}

theorem Precedes.refl (value : ℤ) : order.Precedes value value := by
  cases order <;> exact le_refl value

theorem Precedes.trans {first second third : ℤ} (hfirst : order.Precedes first second)
    (hsecond : order.Precedes second third) : order.Precedes first third := by
  cases order with
  | asc => exact le_trans hfirst hsecond
  | desc => exact le_trans hsecond hfirst

theorem Precedes.antisymm {first second : ℤ} (hfirst : order.Precedes first second)
    (hsecond : order.Precedes second first) : first = second := by
  cases order with
  | asc => exact le_antisymm hfirst hsecond
  | desc => exact le_antisymm hsecond hfirst

theorem precedes_total (first second : ℤ) :
    order.Precedes first second ∨ order.Precedes second first := by
  cases order with
  | asc => exact le_total first second
  | desc => exact le_total second first

/-- The bucket is the first of those that the table lists for the stream part. -/
def FirstBucket (order : SortOrder) (table : BucketTable) (streamPart : StreamPart)
    (bucket : BucketRow) : Prop :=
  table.get? ⟨streamPart, bucket.dateCreate⟩ = some bucket.columns ∧
    ∀ date columns, table.get? ⟨streamPart, date⟩ = some columns →
      order.Precedes bucket.dateCreate date

theorem firstBucket_of_bucket? {bucket : BucketRow}
    (hbucket : order.bucket? table streamPart = some bucket) :
    order.FirstBucket table streamPart bucket := by
  have hsorted := BucketTable.pairwise_select table streamPart fun _ ↦ true
  have hlisted : ∀ date columns, table.get? ⟨streamPart, date⟩ = some columns →
      (⟨date, columns⟩ : BucketRow) ∈ table.select streamPart fun _ ↦ true :=
    fun date columns hrow ↦ BucketTable.mem_select.mpr ⟨hrow, rfl⟩
  cases order with
  | asc =>
    obtain ⟨newer, hselect⟩ := List.getLast?_eq_some_iff.mp hbucket
    rw [hselect] at hsorted hlisted
    have hmem : bucket ∈ table.select streamPart fun _ ↦ true := hselect ▸ by simp
    refine ⟨(BucketTable.mem_select.mp hmem).1, fun date columns hrow ↦ ?_⟩
    rcases List.mem_append.mp (hlisted date columns hrow) with hnewer | hlast
    · exact (List.pairwise_append.mp hsorted).2.2 _ hnewer bucket List.mem_cons_self
    · exact (congrArg BucketRow.dateCreate (List.mem_singleton.mp hlast)).ge
  | desc =>
    obtain ⟨hmem, hnewest⟩ := BucketTable.newest?_eq_some hbucket
    exact ⟨(BucketTable.mem_select.mp hmem).1, fun date columns hrow ↦
      hnewest _ (hlisted date columns hrow)⟩

/-- There is a first bucket when there is a bucket. -/
theorem exists_bucket?_of_get? (order : SortOrder) {date : ℤ} {columns : BucketColumns}
    (hrow : table.get? ⟨streamPart, date⟩ = some columns) :
    ∃ bucket, order.bucket? table streamPart = some bucket := by
  have hmem : (⟨date, columns⟩ : BucketRow) ∈ table.select streamPart fun _ ↦ true :=
    BucketTable.mem_select.mpr ⟨hrow, rfl⟩
  have hne := List.ne_nil_of_mem hmem
  cases order with
  | asc => exact ⟨_, List.getLast?_eq_some_getLast hne⟩
  | desc => exact ⟨_, List.head?_eq_some_head hne⟩

theorem firstBucket_unique {first second : BucketRow}
    (hfirst : order.FirstBucket table streamPart first)
    (hsecond : order.FirstBucket table streamPart second) : first = second := by
  have hdate : first.dateCreate = second.dateCreate :=
    (hfirst.2 _ _ hsecond.1).antisymm (hsecond.2 _ _ hfirst.1)
  have hcolumns : first.columns = second.columns :=
    Option.some.inj (hfirst.1.symm.trans (hdate ▸ hsecond.1))
  cases first
  cases second
  rw [BucketRow.mk.injEq]
  exact ⟨hdate, hcolumns⟩

theorem bucket?_eq_some_iff {bucket : BucketRow} : order.bucket? table streamPart = some bucket ↔
    order.FirstBucket table streamPart bucket := by
  refine ⟨firstBucket_of_bucket?, fun hfirst ↦ ?_⟩
  obtain ⟨found, hfound⟩ := exists_bucket?_of_get? order hfirst.1
  rw [hfound, firstBucket_unique (firstBucket_of_bucket? hfound) hfirst]

theorem timestamp?_eq_some_iff {timestamps : List ℤ} {timestamp : ℤ} :
    order.timestamp? timestamps = some timestamp ↔
      timestamp ∈ timestamps ∧ ∀ other ∈ timestamps, order.Precedes timestamp other := by
  cases order with
  | asc => exact List.min?_eq_some_iff
  | desc => exact List.max?_eq_some_iff

theorem timestamp?_eq_none_iff {timestamps : List ℤ} :
    order.timestamp? timestamps = none ↔ timestamps = [] := by
  cases order with
  | asc => exact List.min?_eq_none_iff
  | desc => exact List.max?_eq_none_iff

end SortOrder

/-! ### Sums that wrap around -/

/-- A stream part for the totals below. -/
def sampleStreamPart : StreamPart := ⟨"stream", 0, stream_ne⟩

/-- Three buckets that together have `2 ^ 32` records and bytes. -/
def fullTurn : BucketTable where
  entries := [(⟨sampleStreamPart, 1000⟩, ⟨"first", 2147483647, 2147483647⟩),
    (⟨sampleStreamPart, 2000⟩, ⟨"second", 2147483647, 2147483647⟩),
    (⟨sampleStreamPart, 3000⟩, ⟨"third", 2, 2⟩)]
  nodup_keys := by decide

/-- After a full turn both totals are zero: the sum is not negative. -/
theorem totals_of_fullTurn :
    total fullTurn sampleStreamPart BucketColumns.records = 2 ^ 32 ∧
      getNumberOfMessagesInStream fullTurn sampleStreamPart = 0 ∧
      total fullTurn sampleStreamPart BucketColumns.size = 2 ^ 32 ∧
      getTotalBytesInStream fullTurn sampleStreamPart = 0 := by
  decide +kernel

end PomboStorageNode.Storage.StreamMetadata
