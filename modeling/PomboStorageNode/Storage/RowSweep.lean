import PomboStorageNode.Library.Budget
import PomboStorageNode.Storage.OrphanSweep

/-!
# The row sweep

The second phase of a retention run deletes single messages that are older than the storage days of
their stream, in buckets that are not deleted as a whole. It goes through the stream parts, and in
each through the buckets that start before the limit, newest first. In each bucket it counts the
messages before the limit and deletes them, all at once, unless the run would have deleted more than
`rowDeleteLimit` messages then: in that case it returns.

So a run deletes nothing when the first bucket in which it finds such messages has too many of them,
and neither does any later one while that is so: `sweepsRows_iff` is the exact condition, and
`oversizedBucket` are tables that no run ever changes.
-/

set_option autoImplicit false

namespace PomboStorageNode.Storage.RowSweep

open Library Tables StreamMetadata StreamEnds

/-! ### The sweep -/

/-- A bucket that the sweep looks into, and the limit for its messages. -/
structure Visit where
  streamPart : StreamPart
  cutoff : ℤ
  bucketId : BucketId

/-- The `WHERE` clause of the queries on the messages of a bucket. -/
def Visit.selects (visit : Visit) (key : DataKey) : Bool :=
  Retention.inBucket visit.streamPart visit.bucketId key && key.timestamp < visit.cutoff

/-- `SELECT COUNT(*) AS c FROM stream_data WHERE stream_id = ? AND partition = ? AND bucket_id = ?
AND ts < ?`. -/
def countRows (data : StreamData) (visit : Visit) : ℕ :=
  (data.select visit.streamPart [visit.bucketId] fun key ↦ key.timestamp < visit.cutoff).length

/-- `DELETE FROM stream_data WHERE stream_id = ? AND partition = ? AND bucket_id = ? AND ts < ?`.
-/
def deleteRows (data : StreamData) (visit : Visit) : StreamData :=
  data.filter fun row ↦ !visit.selects row.1

/-- `SELECT id FROM bucket WHERE stream_id = ? AND partition = ? AND date_create <= ?`. -/
def selectBuckets (buckets : BucketTable) (streamPart : StreamPart) (cutoff : ℤ) :
    List BucketId :=
  ((buckets.select streamPart fun date ↦ date ≤ cutoff).take defaultFetchSize).map
    fun row ↦ row.columns.id

/-- The loop over the buckets of a stream part: the messages that are left and the number of those
that were deleted, or only the former when the sweep returns. -/
def sweepBuckets (config : Retention.RetentionConfig) (streamPart : StreamPart) (cutoff : ℤ) :
    List BucketId → StreamData → ℕ → Except StreamData (StreamData × ℕ)
  | [], data, rowsDeleted => .ok (data, rowsDeleted)
  | bucketId :: bucketIds, data, rowsDeleted =>
    let visit : Visit := ⟨streamPart, cutoff, bucketId⟩
    let count := countRows data visit
    if count = 0 then sweepBuckets config streamPart cutoff bucketIds data rowsDeleted
    else if config.rowDeleteLimit < rowsDeleted + count then .error data
    else sweepBuckets config streamPart cutoff bucketIds (deleteRows data visit)
      (rowsDeleted + count)

/-- The loop over the stream parts. The clock shows `now streamPart` when the turn of a stream part
comes. -/
def sweepStreamParts (config : Retention.RetentionConfig) (buckets : BucketTable)
    (storageDaysOf : String → Option ℤ) (now : StreamPart → ℤ) :
    List StreamPart → StreamData → ℕ → StreamData
  | [], data, _ => data
  | streamPart :: pairs, data, rowsDeleted =>
    if config.rowDeleteLimit ≤ rowsDeleted then data
    else match storageDaysOf streamPart.streamId with
      | none => sweepStreamParts config buckets storageDaysOf now pairs data rowsDeleted
      | some storageDays =>
        let cutoff := Retention.timestampBefore (now streamPart) storageDays
        match sweepBuckets config streamPart cutoff (selectBuckets buckets streamPart cutoff) data
            rowsDeleted with
        | .error left => left
        | .ok (left, rowsDeleted) =>
          sweepStreamParts config buckets storageDaysOf now pairs left rowsDeleted

/-- `rowSweep`: the tables after it, when nothing else writes. `storageDaysOf` says what the lookups
of the storage days return. -/
def rowSweep (config : Retention.RetentionConfig) (tables : StoredTables)
    (storageDaysOf : String → Option ℤ) (now : StreamPart → ℤ) : StoredTables :=
  ⟨tables.buckets, sweepStreamParts config tables.buckets storageDaysOf now
    (OrphanSweep.listStreamParts tables.buckets) tables.data 0⟩

/-! ### The buckets in their order -/

/-- The buckets of a stream part that the sweep looks into. -/
def visitsOf (buckets : BucketTable) (storageDaysOf : String → Option ℤ) (now : StreamPart → ℤ)
    (streamPart : StreamPart) : List Visit :=
  match storageDaysOf streamPart.streamId with
  | none => []
  | some storageDays =>
    let cutoff := Retention.timestampBefore (now streamPart) storageDays
    (selectBuckets buckets streamPart cutoff).map fun bucketId ↦ ⟨streamPart, cutoff, bucketId⟩

/-- The buckets that the sweep looks into as long as it does not return. -/
def visits (buckets : BucketTable) (storageDaysOf : String → Option ℤ) (now : StreamPart → ℤ) :
    List Visit :=
  (OrphanSweep.listStreamParts buckets).flatMap (visitsOf buckets storageDaysOf now)

variable {config : Retention.RetentionConfig} {tables : StoredTables} {buckets : BucketTable}
  {storageDaysOf : String → Option ℤ} {now : StreamPart → ℤ} {data : StreamData}

/-- The loop over the buckets of a stream part as the start of a run over more buckets. -/
theorem run_append_visits {streamPart : StreamPart} {cutoff : ℤ} {bucketIds : List BucketId}
    {rest : List Visit} {rowsDeleted : ℕ} :
    Budget.run countRows deleteRows config.rowDeleteLimit
        ((bucketIds.map fun bucketId ↦ ⟨streamPart, cutoff, bucketId⟩) ++ rest) data rowsDeleted =
      match sweepBuckets config streamPart cutoff bucketIds data rowsDeleted with
      | .error left => left
      | .ok (left, rowsDeleted) =>
        Budget.run countRows deleteRows config.rowDeleteLimit rest left rowsDeleted := by
  induction bucketIds generalizing data rowsDeleted with
  | nil => rfl
  | cons bucketId bucketIds ih =>
    rw [List.map_cons, List.cons_append, Budget.run, sweepBuckets]
    split_ifs
    · exact ih
    · rfl
    · exact ih

/-- The sweep is a run over its buckets. -/
theorem sweepStreamParts_eq_run {pairs : List StreamPart} {rowsDeleted : ℕ} :
    sweepStreamParts config buckets storageDaysOf now pairs data rowsDeleted =
      Budget.run countRows deleteRows config.rowDeleteLimit
        (pairs.flatMap (visitsOf buckets storageDaysOf now)) data rowsDeleted := by
  induction pairs generalizing data rowsDeleted with
  | nil => rfl
  | cons streamPart pairs ih =>
    rw [sweepStreamParts, List.flatMap_cons]
    split_ifs with hspent
    · exact (Budget.run_of_le hspent).symm
    unfold visitsOf
    cases hdays : storageDaysOf streamPart.streamId with
    | none => exact ih
    | some storageDays =>
      dsimp only
      rw [run_append_visits]
      split
      · rfl
      · exact ih

/-! ### The queries -/

variable {visit : Visit}

theorem countRows_eq (data : StreamData) (visit : Visit) :
    countRows data visit = (data.entries.filter fun row ↦ visit.selects row.1).length := by
  rw [countRows, StreamData.select]
  congr 2
  funext row
  simp [Visit.selects, Retention.inBucket, Bool.and_assoc]

theorem countRows_pos_iff : 0 < countRows tables.data visit ↔
    ∃ key, tables.Stores key ∧ visit.selects key = true := by
  rw [countRows_eq, List.length_pos_iff_exists_mem]
  simp only [List.mem_filter, StoredTables.Stores, OrderedMap.get?_eq_some_iff]
  constructor
  · rintro ⟨row, hrow, hselects⟩
    exact ⟨row.1, ⟨row.2, hrow⟩, hselects⟩
  · rintro ⟨key, ⟨columns, hrow⟩, hselects⟩
    exact ⟨(key, columns), hrow, hselects⟩

/-- A deletion takes away as many messages as were counted. -/
theorem length_deleteRows (data : StreamData) (visit : Visit) :
    data.entries.length = (deleteRows data visit).entries.length + countRows data visit := by
  rw [countRows_eq, deleteRows, OrderedMap.filter, Nat.add_comm]
  exact List.length_eq_length_filter_add _

theorem cutoff_of_mem_visits (hmem : visit ∈ visits buckets storageDaysOf now) :
    ∃ storageDays, storageDaysOf visit.streamPart.streamId = some storageDays ∧
      visit.cutoff = Retention.timestampBefore (now visit.streamPart) storageDays := by
  obtain ⟨streamPart, -, hvisit⟩ := List.mem_flatMap.mp hmem
  unfold visitsOf at hvisit
  split at hvisit <;> rename_i hdays
  · cases hvisit
  · obtain ⟨bucketId, -, rfl⟩ := List.mem_map.mp hvisit
    exact ⟨_, hdays, rfl⟩

/-! ### What a run deletes -/

/-- A message that the sweep is for: it is before the limit, in a bucket that starts no later than
that. -/
def Stale (tables : StoredTables) (storageDaysOf : String → Option ℤ) (now : StreamPart → ℤ)
    (key : DataKey) : Prop :=
  tables.Stores key ∧ ∃ storageDays, storageDaysOf key.streamPart.streamId = some storageDays ∧
    key.timestamp < Retention.timestampBefore (now key.streamPart) storageDays ∧
    ∃ date columns, tables.buckets.get? ⟨key.streamPart, date⟩ = some columns ∧
      columns.id = key.bucketId ∧ date ≤ Retention.timestampBefore (now key.streamPart) storageDays

/-- What the tables should be after a run: it deletes messages up to its limit, all of them past
the storage days of their stream, and some if there are any to be deleted. -/
structure SweepsRows (config : Retention.RetentionConfig) (tables : StoredTables)
    (storageDaysOf : String → Option ℤ) (now : StreamPart → ℤ) (after : StoredTables) : Prop where
  limit : (tables.data.entries.filter fun row ↦ !after.data.has row.1).length ≤
    config.rowDeleteLimit
  expired : ∀ key, tables.Stores key → ¬ after.Stores key →
    ∃ storageDays, storageDaysOf key.streamPart.streamId = some storageDays ∧
      key.timestamp < Retention.timestampBefore (now key.streamPart) storageDays
  progress : (∃ key, Stale tables storageDaysOf now key) →
    ∃ key, tables.Stores key ∧ ¬ after.Stores key

theorem data_rowSweep (config : Retention.RetentionConfig) (tables : StoredTables)
    (storageDaysOf : String → Option ℤ) (now : StreamPart → ℤ) :
    (rowSweep config tables storageDaysOf now).data =
      Budget.run countRows deleteRows config.rowDeleteLimit
        (visits tables.buckets storageDaysOf now) tables.data 0 :=
  sweepStreamParts_eq_run

/-- A run keeps some of the messages as they are. -/
theorem exists_filter_rowSweep (config : Retention.RetentionConfig) (tables : StoredTables)
    (storageDaysOf : String → Option ℤ) (now : StreamPart → ℤ) :
    ∃ keep, (rowSweep config tables storageDaysOf now).data.entries =
      tables.data.entries.filter keep := by
  rw [data_rowSweep]
  refine Budget.run_induction (motive := fun left : StreamData ↦
    ∃ keep, left.entries = tables.data.entries.filter keep) ?_ ⟨fun _ ↦ true, by simp⟩
  rintro left visit - ⟨keep, hkeep⟩
  exact ⟨_, (congrArg (List.filter _) hkeep).trans List.filter_filter⟩

theorem length_deleted_le (config : Retention.RetentionConfig) (tables : StoredTables)
    (storageDaysOf : String → Option ℤ) (now : StreamPart → ℤ) :
    (tables.data.entries.filter fun row ↦
      !(rowSweep config tables storageDaysOf now).data.has row.1).length ≤
        config.rowDeleteLimit := by
  obtain ⟨keep, hkeep⟩ := exists_filter_rowSweep config tables storageDaysOf now
  have hhas : ∀ row ∈ tables.data.entries,
      (rowSweep config tables storageDaysOf now).data.has row.1 = keep row := by
    intro row hrow
    rw [Bool.eq_iff_iff, OrderedMap.has_iff_mem_keys, OrderedMap.mem_keys_iff]
    simp only [OrderedMap.get?_eq_some_iff, hkeep, List.mem_filter]
    constructor
    · rintro ⟨columns, hcolumns, hkept⟩
      rwa [tables.data.value_unique hcolumns hrow] at hkept
    · exact fun hkept ↦ ⟨row.2, hrow, hkept⟩
  have hdeleted : (tables.data.entries.filter fun row ↦
      !(rowSweep config tables storageDaysOf now).data.has row.1) =
        tables.data.entries.filter fun row ↦ !keep row :=
    List.filter_congr fun row hrow ↦ by rw [hhas row hrow]
  have htotal := List.length_eq_length_filter_add (l := tables.data.entries) keep
  have hmeasure : tables.data.entries.length + 0 ≤
      (rowSweep config tables storageDaysOf now).data.entries.length + config.rowDeleteLimit := by
    rw [data_rowSweep]
    exact Budget.measure_run_le (fun data visit ↦ (length_deleteRows data visit).le)
      (Nat.zero_le _)
  rw [hdeleted]
  rw [hkeep] at hmeasure
  omega

theorem expired_of_deleted {key : DataKey} (hstores : tables.Stores key)
    (hdeleted : ¬ (rowSweep config tables storageDaysOf now).Stores key) :
    ∃ storageDays, storageDaysOf key.streamPart.streamId = some storageDays ∧
      key.timestamp < Retention.timestampBefore (now key.streamPart) storageDays := by
  by_contra hrecent
  refine hdeleted ?_
  rw [StoredTables.Stores, data_rowSweep]
  refine Budget.run_induction (motive := fun left : StreamData ↦
    ∃ columns, left.get? key = some columns) ?_ hstores
  rintro left visit hvisit ⟨columns, hcolumns⟩
  refine ⟨columns, ?_⟩
  rw [deleteRows, OrderedMap.get?_filter, hcolumns]
  refine Option.filter_some_pos ?_
  by_contra hselects
  rw [Bool.not_eq_true, Bool.not_eq_false', Visit.selects, Bool.and_eq_true] at hselects
  obtain ⟨hbucket, htime⟩ := hselects
  obtain ⟨storageDays, hdays, hcutoff⟩ := cutoff_of_mem_visits hvisit
  obtain ⟨hpart, -⟩ := of_decide_eq_true hbucket
  rw [← hpart] at hdays hcutoff
  exact hrecent ⟨storageDays, hdays, hcutoff ▸ of_decide_eq_true htime⟩

/-- A run deletes a message if and only if the first bucket that has messages before the limit has
no more of them than the run may delete. -/
theorem deletes_iff : (∃ key, tables.Stores key ∧
      ¬ (rowSweep config tables storageDaysOf now).Stores key) ↔
    Budget.FirstFits countRows config.rowDeleteLimit (visits tables.buckets storageDaysOf now)
      tables.data := by
  simp only [StoredTables.Stores, data_rowSweep]
  constructor
  · rintro ⟨key, hstores, hdeleted⟩
    by_contra hfits
    rw [Budget.run_of_not_firstFits hfits] at hdeleted
    exact hdeleted hstores
  · intro hfits
    obtain ⟨first, after, -, hpos, hrun⟩ := Budget.run_of_firstFits hfits
    obtain ⟨key, hstores, hselects⟩ := countRows_pos_iff.mp hpos
    refine ⟨key, hstores, ?_⟩
    rw [hrun]
    refine Budget.run_induction (motive := fun left : StreamData ↦
      ¬ ∃ columns, left.get? key = some columns) ?_ ?_
    · rintro left visit - hgone ⟨columns, hcolumns⟩
      rw [deleteRows, OrderedMap.get?_filter, Option.filter_eq_some_iff] at hcolumns
      exact hgone ⟨columns, hcolumns.1⟩
    · rintro ⟨columns, hcolumns⟩
      rw [deleteRows, OrderedMap.get?_filter, Option.filter_eq_some_iff, hselects] at hcolumns
      cases hcolumns.2

/-- A run is as it should be if and only if it finds no message that it is for, or the first bucket
in its order that has messages before the limit, among those that it looks into, has at most
`rowDeleteLimit` of them. -/
theorem sweepsRows_iff (config : Retention.RetentionConfig) (tables : StoredTables)
    (storageDaysOf : String → Option ℤ) (now : StreamPart → ℤ) :
    SweepsRows config tables storageDaysOf now (rowSweep config tables storageDaysOf now) ↔
      ((∃ key, Stale tables storageDaysOf now key) →
        Budget.FirstFits countRows config.rowDeleteLimit
          (visits tables.buckets storageDaysOf now) tables.data) := by
  rw [← deletes_iff]
  exact ⟨SweepsRows.progress, fun hprogress ↦ ⟨length_deleted_le config tables storageDaysOf now,
    fun key ↦ expired_of_deleted, hprogress⟩⟩

/-! ### A bucket that does not fit -/

theorem rowSweep_of_not_firstFits (hfits : ¬ Budget.FirstFits countRows config.rowDeleteLimit
    (visits tables.buckets storageDaysOf now) tables.data) :
    rowSweep config tables storageDaysOf now = tables := by
  have hdata := data_rowSweep config tables storageDaysOf now
  rw [Budget.run_of_not_firstFits hfits] at hdata
  exact congrArg (StoredTables.mk tables.buckets) hdata

/-- The stream part of the bucket. -/
def sensorPart : StreamPart := ⟨"/sensor", 0, by decide⟩

/-- A message in the bucket. -/
def sensorRow (timestamp : ℤ) : DataRow :=
  (⟨sensorPart, "bucket", timestamp, ⟨0, zero_sequenceNumber⟩, "publisher", "chain"⟩, ⟨none, none⟩)

/-- A bucket with two messages. -/
def oversizedBucket : StoredTables where
  buckets := OrderedMap.empty.set ⟨sensorPart, 0⟩ ⟨"bucket", 2, 0⟩
  data := Retention.insertRows OrderedMap.empty [sensorRow 1, sensorRow 2]

/-- A run may delete one message. -/
def oneRow : Retention.RetentionConfig := ⟨100000, 1⟩

theorem two_lt_cutoff {clock : ℤ} (hlate : 30 * Retention.dayMs ≤ clock) :
    2 < Retention.timestampBefore clock 7 := by
  unfold Retention.timestampBefore Retention.dayMs at *
  omega

theorem visits_oversizedBucket {now : StreamPart → ℤ}
    (hlate : 30 * Retention.dayMs ≤ now sensorPart) :
    visits oversizedBucket.buckets (fun _ ↦ some 7) now =
      [⟨sensorPart, Retention.timestampBefore (now sensorPart) 7, "bucket"⟩] := by
  have hparts : OrphanSweep.listStreamParts oversizedBucket.buckets = [sensorPart] := by decide
  have hselect : oversizedBucket.buckets.select sensorPart
      (fun date ↦ date ≤ Retention.timestampBefore (now sensorPart) 7) =
        [⟨0, ⟨"bucket", 2, 0⟩⟩] := by
    have hdate : 0 ≤ Retention.timestampBefore (now sensorPart) 7 := by
      linarith [two_lt_cutoff hlate]
    rw [BucketTable.select, oversizedBucket, OrderedMap.set]
    simp [OrderedMap.empty, BucketTable.rowOf, hdate]
  rw [visits, hparts, List.flatMap_singleton, visitsOf]
  dsimp only
  rw [selectBuckets, hselect, List.take_of_length_le (by rw [defaultFetchSize]; decide)]
  rfl

/-- The runs that come late enough never change the tables. -/
theorem rowSweep_oversizedBucket {now : StreamPart → ℤ}
    (hlate : 30 * Retention.dayMs ≤ now sensorPart) :
    rowSweep oneRow oversizedBucket (fun _ ↦ some 7) now = oversizedBucket := by
  have hcount : countRows oversizedBucket.data
      ⟨sensorPart, Retention.timestampBefore (now sensorPart) 7, "bucket"⟩ = 2 := by
    have htwo := two_lt_cutoff hlate
    have hone : 1 < Retention.timestampBefore (now sensorPart) 7 := by linarith
    have hentries : oversizedBucket.data.entries = [sensorRow 1, sensorRow 2] := by decide
    rw [countRows_eq, hentries]
    simp [Visit.selects, Retention.inBucket, sensorRow, hone, htwo]
  apply rowSweep_of_not_firstFits
  rw [visits_oversizedBucket hlate, Budget.firstFits_cons_of_pos (by rw [hcount]; decide), hcount]
  decide

theorem stale_sensorRow {now : StreamPart → ℤ} (hlate : 30 * Retention.dayMs ≤ now sensorPart) :
    Stale oversizedBucket (fun _ ↦ some 7) now (sensorRow 1).1 := by
  have htwo := two_lt_cutoff hlate
  refine ⟨⟨⟨none, none⟩, by decide⟩, 7, rfl, ?_, 0, ⟨"bucket", 2, 0⟩, by decide, rfl, ?_⟩
  · exact lt_trans (by decide) htwo
  · exact le_trans (by decide) htwo.le

/-- A message is past its storage days from some time on, and no run after that deletes any. -/
theorem oversizedBucket_stuck :
    1 ≤ oneRow.rowDeleteLimit ∧
    (∀ now : StreamPart → ℤ, 30 * Retention.dayMs ≤ now sensorPart →
      Stale oversizedBucket (fun _ ↦ some 7) now (sensorRow 1).1 ∧
      ¬ SweepsRows oneRow oversizedBucket (fun _ ↦ some 7) now
        (rowSweep oneRow oversizedBucket (fun _ ↦ some 7) now)) ∧
    ∀ runs : List (StreamPart → ℤ), (∀ now ∈ runs, 30 * Retention.dayMs ≤ now sensorPart) →
      runs.foldl (fun tables now ↦ rowSweep oneRow tables (fun _ ↦ some 7) now) oversizedBucket =
        oversizedBucket := by
  refine ⟨le_refl 1, fun now hlate ↦ ⟨stale_sensorRow hlate, fun hsweeps ↦ ?_⟩,
    fun runs hlate ↦ ?_⟩
  · obtain ⟨key, hstores, hdeleted⟩ := hsweeps.progress ⟨_, stale_sensorRow hlate⟩
    rw [rowSweep_oversizedBucket hlate] at hdeleted
    exact hdeleted hstores
  · induction runs with
    | nil => rfl
    | cons now runs ih =>
      obtain ⟨hnow, hruns⟩ := List.forall_mem_cons.mp hlate
      rw [List.foldl_cons, rowSweep_oversizedBucket hnow]
      exact ih hruns

end PomboStorageNode.Storage.RowSweep
