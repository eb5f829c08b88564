import PomboStorageNode.Library.Least
import PomboStorageNode.Storage.FetchRange
import Mathlib.Algebra.Ring.Int.Defs
import Mathlib.Data.Prod.Lex

/-!
# Requests for the last messages

`Storage.requestLast` streams the last messages of a stream part. It takes the rows of the bucket
table newest first, one a page, and counts the messages in each bucket until it has counted enough;
then one query over the buckets so far returns the last rows, and the stream emits them in
ascending order.

The walk stops on the number of rows it has counted and never compares dates. Buckets overlap in
time, and a bucket it did not reach may hold rows that are later than those it counted.
`emitsLast_iff` says on which tables the stream is right: whenever some of the newest buckets hold
enough rows, every row of an older bucket has enough of them at or above it.
-/

set_option autoImplicit false

namespace PomboStorageNode.Storage.RequestLast

open Library Tables FetchRange

/-! ### The order of the rows -/

/-- The columns `ts` and `sequence_no`, compared in this order. -/
def position (row : DataRow) : ℤ ×ₗ ℤ :=
  toLex (row.1.timestamp, row.1.sequenceNo.val)

/-- `position` in descending order. -/
def recency (row : DataRow) : (ℤ ×ₗ ℤ)ᵒᵈ :=
  OrderDual.toDual (position row)

/-- `ORDER BY ts DESC, sequence_no DESC` over several buckets. The two columns do not determine the
row, and the order of rows that agree in both is up to the database. -/
structure RowOrder where
  sort : List DataRow → List DataRow
  perm : ∀ rows, (sort rows).Perm rows
  descending : ∀ rows, (sort rows).Pairwise fun first second ↦ position second ≤ position first

/-- An order that leaves rows that agree in both columns as they come. -/
def RowOrder.stable : RowOrder where
  sort := List.insertionSort fun first second ↦ position second ≤ position first
  perm := List.perm_insertionSort _
  descending rows := by
    have : Std.Total fun first second : DataRow ↦ position second ≤ position first :=
      ⟨fun first second ↦ le_total (position second) (position first)⟩
    have : IsTrans DataRow fun first second ↦ position second ≤ position first :=
      ⟨fun _ _ _ hfirst hsecond ↦ le_trans hsecond hfirst⟩
    exact List.pairwise_insertionSort _ rows

/-! ### The request -/

/-- `MAX_RESEND_LAST`. -/
def maxResendLast : ℕ := 10000

/-- `COUNT_MESSAGES`: the low 32 bits of the count, a `bigint`, with their sign
(`row.total.low`). -/
def countMessages (data : StreamData) (streamPart : StreamPart) (bucketId : BucketId) : ℤ :=
  toInt32 (data.select streamPart [bucketId] fun _ ↦ true).length

/-- The callbacks of `eachRow`, one for each page of one row: the ids in `bucketIds` when the last
query is made. -/
def collectBuckets (data : StreamData) (streamPart : StreamPart) (limit : ℕ) :
    List BucketRow → ℤ → List BucketId
  | [], _ => []
  | row :: rest, total =>
    let total := total + countMessages data streamPart row.columns.id
    -- if not enough messages and the next page exists, repeat
    row.columns.id :: if rest ≠ [] ∧ total < limit ∧ total < maxResendLast then
      collectBuckets data streamPart limit rest total
    else []

/-- The result of `GET_LAST_N_MESSAGES`. -/
def lastRows (order : RowOrder) (data : StreamData) (streamPart : StreamPart)
    (bucketIds : List BucketId) (limit : ℕ) : List DataRow :=
  (order.sort (data.select streamPart bucketIds fun _ ↦ true)).take limit

/-- The last query; Cassandra refuses a `LIMIT` of zero. -/
def getLastMessages (order : RowOrder) (data : StreamData) (streamPart : StreamPart)
    (bucketIds : List BucketId) (limit : ℕ) : Except String (List DataRow) :=
  if limit = 0 then throw "LIMIT must be strictly positive"
  else return lastRows order data streamPart bucketIds limit

/-- The smaller of the requested limit and `MAX_RESEND_LAST`. -/
def clampLimit (limit : ℕ) : ℕ :=
  if maxResendLast < limit then maxResendLast else limit

/-- The rows that `requestLast` writes to its result stream. -/
def requestLastRows (order : RowOrder) (buckets : BucketTable) (data : StreamData)
    (streamPart : StreamPart) (limit : ℕ) : Except String (List DataRow) := do
  let limit := clampLimit limit
  let rows := buckets.select streamPart fun _ ↦ true
  -- no buckets found at all
  if rows = [] then
    return []
  let last ← getLastMessages order data streamPart (collectBuckets data streamPart limit rows 0)
    limit
  return last.reverse

/-- `requestLast`: the messages that the result stream pushes. -/
def requestLast (order : RowOrder) (buckets : BucketTable) (data : StreamData)
    (streamPart : StreamPart) (limit : ℕ) : Except String (List StoredMessage) := do
  let rows ← requestLastRows order buckets data streamPart limit
  return rows.filterMap parseRow

/-! ### What the stream should contain -/

/-- The rows of a stream part. -/
def rowsOfPart (data : StreamData) (streamPart : StreamPart) : List DataRow :=
  data.entries.filter fun row ↦ row.1.streamPart = streamPart

/-- On these tables the request writes the greatest rows of the stream part in ascending order, as
many as the limit and the part allow, and pushes the messages of those that have a payload. -/
def EmitsLast (order : RowOrder) (buckets : BucketTable) (data : StreamData)
    (streamPart : StreamPart) (limit : ℕ) : Prop :=
  ∃ rows, requestLastRows order buckets data streamPart limit = .ok rows ∧
    requestLast order buckets data streamPart limit = .ok (rows.filterMap parseRow) ∧
    rows.length = min (min limit maxResendLast) (rowsOfPart data streamPart).length ∧
    Least recency (min limit maxResendLast) (· ∈ rowsOfPart data streamPart) rows.reverse

/-- The number of messages that the walk has counted in some buckets. -/
def counted (data : StreamData) (streamPart : StreamPart) (rows : List BucketRow) : ℤ :=
  (rows.map fun row ↦ countMessages data streamPart row.columns.id).sum

/-- When the counts of the newest buckets reach the limit, every row that is in none of them has at
least that many of their rows at or above it. -/
def FrontsHoldLast (buckets : BucketTable) (data : StreamData) (streamPart : StreamPart)
    (limit : ℕ) : Prop :=
  ∀ front, front <+: buckets.select streamPart (fun _ ↦ true) →
    limit ≤ counted data streamPart front → ∀ row ∈ rowsOfPart data streamPart,
      row.1.bucketId ∉ front.map (fun bucket ↦ bucket.columns.id) →
        limit ≤ (data.select streamPart (front.map fun bucket ↦ bucket.columns.id)
          fun _ ↦ true).countP fun held ↦ position row ≤ position held

/-! ### Where the walk stops -/

variable {order : RowOrder} {buckets : BucketTable} {data : StreamData} {streamPart : StreamPart}
  {limit : ℕ}

theorem clampLimit_eq (limit : ℕ) : clampLimit limit = min limit maxResendLast := by
  unfold clampLimit
  split_ifs with hlimit <;> omega

@[simp] theorem counted_nil : counted data streamPart [] = 0 := rfl

@[simp] theorem counted_cons (row : BucketRow) (rows : List BucketRow) :
    counted data streamPart (row :: rows) =
      countMessages data streamPart row.columns.id + counted data streamPart rows := by
  rw [counted, List.map_cons, List.sum_cons, counted]

/-- The walk collects the buckets of a front, which is everything or counts enough, and no shorter
front counts enough.
Assumes: the limit is clamped, and what was counted before is not enough. -/
theorem collectBuckets_spec (data : StreamData) (streamPart : StreamPart)
    (hlimit : limit ≤ maxResendLast) (rows : List BucketRow) :
    ∀ total : ℤ, total < limit → ∃ front, front <+: rows ∧
      collectBuckets data streamPart limit rows total =
        front.map (fun bucket ↦ bucket.columns.id) ∧
      (front = rows ∨ limit ≤ total + counted data streamPart front) ∧
      ∀ shorter, shorter <+: front → shorter ≠ front →
        total + counted data streamPart shorter < limit := by
  induction rows with
  | nil =>
    intro total htotal
    exact ⟨[], List.prefix_rfl, rfl, Or.inl rfl, fun shorter hprefix hne ↦
      absurd (List.prefix_nil.mp hprefix) hne⟩
  | cons row rest ih =>
    intro total htotal
    unfold collectBuckets
    dsimp only
    split_ifs with hnext
    · obtain ⟨-, hfew, -⟩ := hnext
      obtain ⟨front, hfront, hids, hend, hshorter⟩ := ih _ hfew
      refine ⟨row :: front, (List.prefix_cons_inj row).mpr hfront, by rw [hids, List.map_cons],
        ?_, fun shorter hprefix hne ↦ ?_⟩
      · rw [counted_cons, ← Int.add_assoc]
        exact hend.imp_left (congrArg (row :: ·))
      · cases shorter with
        | nil => simpa using htotal
        | cons first shorter =>
          obtain ⟨rfl, hrest⟩ := List.cons_prefix_cons.mp hprefix
          rw [counted_cons, ← Int.add_assoc]
          exact hshorter shorter hrest fun heq ↦ hne (heq ▸ rfl)
    · refine ⟨[row], by simp, rfl, ?_, fun shorter hprefix hne ↦ ?_⟩
      · rw [counted_cons, counted_nil, Int.add_zero]
        by_cases hlast : rest = []
        · exact Or.inl (hlast ▸ rfl)
        · simp only [ne_eq, hlast, not_false_eq_true, true_and, not_and_or, not_lt] at hnext
          omega
      · cases shorter with
        | nil => simpa using htotal
        | cons first shorter =>
          obtain ⟨rfl, hrest⟩ := List.cons_prefix_cons.mp hprefix
          exact absurd (List.prefix_nil.mp hrest ▸ rfl) hne

/-! ### When the stream is right -/

theorem mem_rowsOfPart {row : DataRow} :
    row ∈ rowsOfPart data streamPart ↔ row ∈ data.entries ∧ row.1.streamPart = streamPart := by
  rw [rowsOfPart, List.mem_filter, decide_eq_true_eq]

theorem mem_select_all {bucketIds : List BucketId} {row : DataRow} :
    row ∈ data.select streamPart bucketIds (fun _ ↦ true) ↔
      row ∈ rowsOfPart data streamPart ∧ row.1.bucketId ∈ bucketIds := by
  rw [StreamData.mem_select, mem_rowsOfPart, and_iff_left rfl, and_assoc]

theorem least_lastRows (order : RowOrder) (bucketIds : List BucketId) (limit : ℕ) :
    Least recency limit (· ∈ data.select streamPart bucketIds fun _ ↦ true)
      (lastRows order data streamPart bucketIds limit) :=
  Least.take (order.perm _) (data.nodup_entries.filter _) (order.descending _)

/-- The request writes the last rows of the buckets it collects.
Assumes: the limit is positive. -/
theorem requestLastRows_eq (order : RowOrder) (buckets : BucketTable) (data : StreamData)
    (streamPart : StreamPart) (hlimit : 1 ≤ limit) :
    requestLastRows order buckets data streamPart limit = .ok
      (lastRows order data streamPart (collectBuckets data streamPart (min limit maxResendLast)
        (buckets.select streamPart fun _ ↦ true) 0) (min limit maxResendLast)).reverse := by
  have hpos : min limit maxResendLast ≠ 0 :=
    Nat.pos_iff_ne_zero.mp (le_min hlimit (by decide))
  unfold requestLastRows
  rw [clampLimit_eq]
  dsimp only
  split_ifs with hempty
  · have hnone : order.sort [] = [] := (order.perm []).eq_nil
    have hselect : data.select streamPart [] (fun _ ↦ true) = [] := by simp [StreamData.select]
    rw [hempty, collectBuckets, lastRows, hselect, hnone, List.take_nil]
    rfl
  · rw [getLastMessages, if_neg hpos]
    rfl

/-- The stream is right if and only if the rows it writes are the last of the stream part.
Assumes: the limit is positive. -/
theorem emitsLast_iff_least (order : RowOrder) (hlimit : 1 ≤ limit) :
    EmitsLast order buckets data streamPart limit ↔
      Least recency (min limit maxResendLast) (· ∈ rowsOfPart data streamPart)
        (lastRows order data streamPart (collectBuckets data streamPart (min limit maxResendLast)
          (buckets.select streamPart fun _ ↦ true) 0) (min limit maxResendLast)) := by
  have hrows := requestLastRows_eq order buckets data streamPart hlimit
  constructor
  · rintro ⟨rows, hok, -, -, hleast⟩
    obtain rfl := Except.ok.inj (hok.symm.trans hrows)
    rwa [List.reverse_reverse] at hleast
  · intro hleast
    refine ⟨_, hrows, by rw [requestLast, hrows]; rfl, ?_, by rwa [List.reverse_reverse]⟩
    rw [List.length_reverse]
    exact hleast.length_eq (data.nodup_entries.filter _)

/-- A request for the last messages is right if and only if every front of the buckets that reaches
the limit holds the last rows.
Assumes: the rows are in buckets of the table, and the limit is positive. -/
theorem emitsLast_iff (hplaced : WellPlaced buckets data) (hlimit : 1 ≤ limit) :
    EmitsLast order buckets data streamPart limit ↔
      FrontsHoldLast buckets data streamPart (min limit maxResendLast) := by
  have hmax : min limit maxResendLast ≤ maxResendLast := min_le_right _ _
  have hpos : 1 ≤ min limit maxResendLast := le_min hlimit (by decide)
  rw [emitsLast_iff_least order hlimit]
  generalize min limit maxResendLast = limit at hmax hpos ⊢
  obtain ⟨front, hfront, hids, hend, hshorter⟩ := collectBuckets_spec data streamPart hmax
    (buckets.select streamPart fun _ ↦ true) 0 (by omega)
  have hsubset : ∀ bucketIds, data.select streamPart bucketIds (fun _ ↦ true) ⊆
      rowsOfPart data streamPart := fun bucketIds row hrow ↦ (mem_select_all.mp hrow).1
  rw [hids, (least_lastRows order _ limit).iff_of_subset (hsubset _) (data.nodup_entries.filter _)]
  constructor
  · -- a front that reaches the limit contains the one of the walk
    intro henough other hother hreached row hrow hout
    have hle : front <+: other := by
      rcases List.prefix_or_prefix_of_prefix hfront hother with hle | hle
      · exact hle
      · by_contra hne
        have hfew := hshorter other hle fun heq ↦ hne (heq ▸ List.prefix_rfl)
        omega
    have hidsLe : front.map (fun bucket ↦ bucket.columns.id) ⊆
        other.map fun bucket ↦ bucket.columns.id := (hle.map _).subset
    refine (henough row hrow fun hmem ↦ hout (hidsLe (mem_select_all.mp hmem).2)).trans ?_
    refine (List.subperm_of_subset (data.nodup_entries.filter _) fun held hheld ↦ ?_).countP_le _
    obtain ⟨hpart, hmem⟩ := mem_select_all.mp hheld
    exact mem_select_all.mpr ⟨hpart, hidsLe hmem⟩
  · intro hfronts row hrow hnot
    have hout : row.1.bucketId ∉ front.map fun bucket ↦ bucket.columns.id := fun hmem ↦
      hnot (mem_select_all.mpr ⟨hrow, hmem⟩)
    rcases hend with rfl | hreached
    · -- the bucket of the row is in the table
      obtain ⟨hentry, rfl⟩ := mem_rowsOfPart.mp hrow
      obtain ⟨dateCreate, columns, hbucket, hid, -⟩ := hplaced row hentry
      refine absurd (List.mem_map.mpr ⟨⟨dateCreate, columns⟩, ?_, hid⟩) hout
      exact BucketTable.mem_select.mpr ⟨hbucket, rfl⟩
    · exact hfronts front hfront (by omega) row hrow hout

/-! ### Two buckets that overlap -/

/-- A later message that is already in the older of two buckets, and an earlier one in the newer. -/
def overlappingData : StreamData where
  entries := [
    (⟨samplePart, "older", 5000, ⟨0, zero_sequenceNumber⟩, "publisher", "chain"⟩, ⟨some [1], none⟩),
    (⟨samplePart, "newer", 2000, ⟨0, zero_sequenceNumber⟩, "publisher", "chain"⟩, ⟨some [2], none⟩)]
  nodup_keys := by decide

/-- The older bucket is dated 0, and the newer 1000. -/
def overlappingBuckets : BucketTable where
  entries := [(⟨samplePart, 0⟩, ⟨"older", 1, 1⟩), (⟨samplePart, 1000⟩, ⟨"newer", 1, 1⟩)]
  nodup_keys := by decide

theorem wellPlaced_overlapping : WellPlaced overlappingBuckets overlappingData := by
  have hplaced : ∀ dateCreate timestamp, dateCreate ≤ timestamp → timestamp ≤ 5000 →
      0 ≤ dateCreate →
      BucketManager.Placed overlappingBuckets samplePart dateCreate timestamp := by
    intro dateCreate timestamp hle hlate hdate
    refine ⟨hle, fun other columns hfound hbetween ↦ ?_⟩
    have hearly : timestamp - BucketManager.bucketLookbackMs ≤ 0 := by
      unfold BucketManager.bucketLookbackMs
      omega
    omega
  intro row hrow
  rcases List.mem_cons.mp hrow with rfl | hrow
  · exact ⟨0, ⟨"older", 1, 1⟩, rfl, rfl,
      hplaced 0 5000 (by decide) (by decide) (by decide)⟩
  · obtain rfl := List.mem_singleton.mp hrow
    exact ⟨1000, ⟨"newer", 1, 1⟩, rfl, rfl,
      hplaced 1000 2000 (by decide) (by decide) (by decide)⟩

/-- A request for two messages is right there: no front but that of both buckets has two. -/
theorem emitsLast_two_of_overlapping :
    EmitsLast .stable overlappingBuckets overlappingData samplePart 2 := by
  refine (emitsLast_iff wellPlaced_overlapping (by decide)).mpr fun front hfront hreached row hrow
    hout ↦ ?_
  have hselect : overlappingBuckets.select samplePart (fun _ ↦ true) =
      [⟨1000, ⟨"newer", 1, 1⟩⟩, ⟨0, ⟨"older", 1, 1⟩⟩] := by decide
  have hall : front = [⟨1000, ⟨"newer", 1, 1⟩⟩, ⟨0, ⟨"older", 1, 1⟩⟩] := by
    rw [hselect] at hfront
    rcases List.prefix_cons_iff.mp hfront with rfl | ⟨rest, rfl, hrest⟩
    · exact absurd hreached (by decide)
    rcases List.prefix_cons_iff.mp hrest with rfl | ⟨last, rfl, hlast⟩
    · exact absurd hreached (by decide)
    · rw [List.prefix_nil.mp hlast]
  subst hall
  obtain ⟨hentry, -⟩ := mem_rowsOfPart.mp hrow
  rcases List.mem_cons.mp hentry with rfl | hentry
  · exact absurd hout (by decide)
  · obtain rfl := List.mem_singleton.mp hentry
    exact absurd hout (by decide)

/-- The request for the last message emits the one in the newer bucket, although the one in the
older bucket is later: the newer bucket has one message, and that is enough. -/
theorem last_of_overlapping : WellPlaced overlappingBuckets overlappingData ∧
    requestLast .stable overlappingBuckets overlappingData samplePart 1 = .ok [⟨[2], none⟩] ∧
      ¬ EmitsLast .stable overlappingBuckets overlappingData samplePart 1 := by
  have hrows : requestLastRows .stable overlappingBuckets overlappingData samplePart 1 =
      .ok [(⟨samplePart, "newer", 2000, ⟨0, by decide⟩, "publisher", "chain"⟩,
        ⟨some [2], none⟩)] := by decide
  refine ⟨wellPlaced_overlapping, by rw [requestLast, hrows]; rfl, ?_⟩
  rintro ⟨rows, hok, -, -, hleast⟩
  obtain rfl := Except.ok.inj (hok.symm.trans hrows)
  have hlater := (hleast.left_out (⟨samplePart, "older", 5000, ⟨0, by decide⟩, "publisher",
    "chain"⟩, ⟨some [1], none⟩) (by decide) (by decide)).2 _ (List.mem_reverse.mpr
      List.mem_cons_self)
  exact absurd hlater (by decide)

end PomboStorageNode.Storage.RequestLast
