import PomboStorageNode.Storage.BucketDates
import PomboStorageNode.Storage.BucketUpdates

/-!
# Retention beside the writes

A retention run has two phases that work on the tables. `DeleteExpiredCmd` deletes whole buckets:
it lists the stream parts, asks for the storage days of each, selects the buckets that start before
the limit, reads the newest timestamp in each of them, and deletes those in which that is before
the limit too, the row of the bucket and the rows in it in one batch. `rowSweep` then deletes single
rows that are before the limit. Both await every query, and the node goes on meanwhile: `store` puts
messages into buckets, the batches insert their rows some time later, and the bucket manager writes
the rows of buckets whose counters changed since it last did so.

The run deletes a bucket on the strength of what it read before. `removed_expired_and_rows_listed`
says that it removes only expired rows, and that every row stays in a bucket that the table lists,
in every run whose steps are `Undisturbed`: no recent row is inserted between the reading and the
deletion, and no row is inserted after the deletion that the manager believes to be accounted for.
`writtenBesideRetention` is a run in which both happen.

The batches are taken for what they do to the table: rows that were handed over are inserted in any
groups and at any time, possibly more than once, until they are done with.
-/

set_option autoImplicit false

namespace PomboStorageNode.Storage.Retention

open Library Tables BucketManager BucketUpdates

/-! ### The retention run -/

/-- `DAY_MS`. -/
def dayMs : ℤ := 24 * 60 * 60 * 1000

/-- The limits of a run in `RetentionConfig`. -/
structure RetentionConfig where
  bucketDeleteLimit : ℕ
  rowDeleteLimit : ℕ

/-- `StreamPartInfo`. -/
structure StreamPartInfo where
  streamPart : StreamPart
  storageDays : ℤ

/-- `BucketInfo`, less the counters, which are only logged. -/
structure BucketInfo where
  bucketId : BucketId
  dateCreate : ℤ
  streamPart : StreamPart
  storageDays : ℤ

/-- The variables of the loop of `rowSweep` over stream parts, inside of it. -/
structure Sweep where
  streamPart : StreamPart
  storageDays : ℤ
  cutoff : ℤ
  pairs : List StreamPart
  storageDaysByStream : OrderedMap String ℤ
  rowsDeleted : ℕ

/-- Where a run stands: what it awaits, with the tasks that are left and the results so far. The
tasks of `DeleteExpiredCmd` carry the limit that was computed when they were made. -/
inductive Phase
  | idle
  | fetchStreamsInfo (streams : List StreamPart) (infos : List StreamPartInfo)
  | getPotentiallyExpiredBuckets (tasks : List (StreamPartInfo × ℤ)) (result : List BucketInfo)
  | filterExpiredBuckets (tasks : List (BucketInfo × ℤ)) (result : List BucketInfo)
  | deleteExpired (tasks : List BucketInfo)
  | storageDaysOf (pairs : List StreamPart) (streamIds : List String)
      (storageDaysByStream : OrderedMap String ℤ)
  | sweepPairs (pairs : List StreamPart) (storageDaysByStream : OrderedMap String ℤ)
      (rowsDeleted : ℕ)
  | selectBuckets (sweep : Sweep)
  | countRows (sweep : Sweep) (bucketIds : List BucketId)
  | deleteRows (sweep : Sweep) (bucketId : BucketId) (bucketIds : List BucketId)

/-- The node: the bucket manager with the table of buckets, the table of rows, the rows that were
handed over to the batches, the clock and the run. Of the past, the rows that the run removed, each
with `now - storageDays` at that moment. -/
structure State where
  manager : BucketManager.State
  data : StreamData
  buffered : List DataRow
  clock : ℤ
  phase : Phase
  removed : List (DataRow × ℤ)

/-- `timestampBefore`, and the cutoff of the row sweep. -/
def timestampBefore (clock storageDays : ℤ) : ℤ := clock - dayMs * storageDays

/-- `SELECT DISTINCT stream_id, partition FROM bucket`. -/
def listStreamParts (table : BucketTable) : List StreamPart :=
  (table.entries.map fun row ↦ row.1.streamPart).dedup

/-- The rows of a bucket. -/
def inBucket (streamPart : StreamPart) (bucketId : BucketId) (key : DataKey) : Bool :=
  key.streamPart = streamPart ∧ key.bucketId = bucketId

/-- The buckets of a stream part that may be expired. -/
def potentiallyExpired (table : BucketTable) (info : StreamPartInfo) (before : ℤ) :
    List BucketInfo :=
  (table.select info.streamPart fun date ↦ date ≤ before).map fun row ↦
    ⟨row.columns.id, row.dateCreate, info.streamPart, info.storageDays⟩

/-- `SELECT MAX(ts) AS m FROM stream_data WHERE stream_id = ? AND partition = ? AND bucket_id = ?`.
-/
def maxTimestamp (data : StreamData) (bucket : BucketInfo) : Option ℤ :=
  ((data.select bucket.streamPart [bucket.bucketId] fun _ ↦ true).map fun row ↦
    row.1.timestamp).max?

/-- The condition on the newest timestamp in `filterExpiredBuckets`. -/
def isExpired (data : StreamData) (bucket : BucketInfo) (before : ℤ) : Bool :=
  match maxTimestamp data bucket with
  | some newest => newest < before
  | none => true

/-- A `DELETE` on `stream_data`, by a run whose limit is `limit` at this moment. -/
def State.removeRows (state : State) (selected : DataKey → Bool) (limit : ℤ) : State :=
  { state with
    data := state.data.filter fun row ↦ !selected row.1
    removed := state.removed ++
      (state.data.entries.filter fun row ↦ selected row.1).map fun row ↦ (row, limit) }

/-- The batch of `deleteExpired`. -/
def State.deleteBucket (state : State) (bucket : BucketInfo) : State :=
  { state with manager := { state.manager with
      table := state.manager.table.delete ⟨bucket.streamPart, bucket.dateCreate⟩ } }.removeRows
    (inBucket bucket.streamPart bucket.bucketId)
    (timestampBefore state.clock bucket.storageDays)

/-- The number of rows that `rowSweep` finds in a bucket. -/
def countExpired (data : StreamData) (sweep : Sweep) (bucketId : BucketId) : ℕ :=
  (data.select sweep.streamPart [bucketId] fun key ↦ key.timestamp < sweep.cutoff).length

/-- The next step of the run. Of several tasks that are under way, `index` says which one goes on;
`answer` is `none` when what the run awaits fails, and the storage days where it asks for them. A
failed lookup or query is left out by `DeleteExpiredCmd` and ends `rowSweep`, except for the lookup
of the storage days. -/
def retain (config : RetentionConfig) (state : State) (index : ℕ) (answer : Option ℤ) :
    Option State :=
  match state.phase with
  | .idle => some { state with phase := .fetchStreamsInfo (listStreamParts state.manager.table) [] }
  | .fetchStreamsInfo [] infos =>
    some { state with
      phase := .getPotentiallyExpiredBuckets
        (infos.map fun info ↦ (info, timestampBefore state.clock info.storageDays)) [] }
  | .fetchStreamsInfo streams infos => streams[index]?.map fun streamPart ↦
    { state with
      phase := .fetchStreamsInfo (streams.eraseIdx index) (match answer with
        | some storageDays => infos ++ [⟨streamPart, storageDays⟩]
        | none => infos) }
  | .getPotentiallyExpiredBuckets [] result =>
    some { state with
      phase := .filterExpiredBuckets ((result.take config.bucketDeleteLimit).map fun bucket ↦
        (bucket, timestampBefore state.clock bucket.storageDays)) [] }
  | .getPotentiallyExpiredBuckets tasks result => tasks[index]?.map fun task ↦
    { state with
      phase := .getPotentiallyExpiredBuckets (tasks.eraseIdx index)
        (if answer.isSome then result ++ potentiallyExpired state.manager.table task.1 task.2
          else result) }
  | .filterExpiredBuckets [] result => some { state with phase := .deleteExpired result }
  | .filterExpiredBuckets tasks result => tasks[index]?.map fun task ↦
    { state with
      phase := .filterExpiredBuckets (tasks.eraseIdx index)
        (if answer.isSome ∧ isExpired state.data task.1 task.2 = true then result ++ [task.1]
          else result) }
  | .deleteExpired [] =>
    let pairs := listStreamParts state.manager.table
    some { state with
      phase := .storageDaysOf pairs (pairs.map StreamPart.streamId).dedup OrderedMap.empty }
  | .deleteExpired tasks => tasks[index]?.map fun bucket ↦
    let after := { state with phase := .deleteExpired (tasks.eraseIdx index) }
    if answer.isSome then after.deleteBucket bucket else after
  | .storageDaysOf pairs [] storageDaysByStream =>
    some { state with phase := .sweepPairs pairs storageDaysByStream 0 }
  | .storageDaysOf pairs streamIds storageDaysByStream => streamIds[index]?.map fun streamId ↦
    { state with
      phase := .storageDaysOf pairs (streamIds.eraseIdx index) (match answer with
        | some storageDays => storageDaysByStream.set streamId storageDays
        | none => storageDaysByStream) }
  | .sweepPairs [] _ _ => some { state with phase := .idle }
  | .sweepPairs (streamPart :: pairs) storageDaysByStream rowsDeleted =>
    if config.rowDeleteLimit ≤ rowsDeleted then some { state with phase := .idle }
    else match storageDaysByStream.get? streamPart.streamId with
      | none => some { state with phase := .sweepPairs pairs storageDaysByStream rowsDeleted }
      | some storageDays =>
        some { state with
          phase := .selectBuckets ⟨streamPart, storageDays,
            timestampBefore state.clock storageDays, pairs, storageDaysByStream, rowsDeleted⟩ }
  | .selectBuckets sweep =>
    if answer.isSome then
      some { state with
        phase := .countRows sweep
          ((state.manager.table.select sweep.streamPart fun date ↦ date ≤ sweep.cutoff).map
            fun row ↦ row.columns.id) }
    else some { state with phase := .idle }
  | .countRows sweep [] =>
    some { state with
      phase := .sweepPairs sweep.pairs sweep.storageDaysByStream sweep.rowsDeleted }
  | .countRows sweep (bucketId :: bucketIds) =>
    let count := countExpired state.data sweep bucketId
    if answer.isNone then some { state with phase := .idle }
    else if count = 0 then some { state with phase := .countRows sweep bucketIds }
    else if config.rowDeleteLimit < sweep.rowsDeleted + count then
      some { state with phase := .idle }
    else
      some { state with
        phase := .deleteRows { sweep with rowsDeleted := sweep.rowsDeleted + count } bucketId
          bucketIds }
  | .deleteRows sweep bucketId bucketIds =>
    if answer.isSome then
      some (State.removeRows { state with phase := .countRows sweep bucketIds }
        (fun key ↦ inBucket sweep.streamPart bucketId key && key.timestamp < sweep.cutoff)
        (timestampBefore state.clock sweep.storageDays))
    else some { state with phase := .idle }

/-! ### The writes -/

/-- A message, as far as `store` reads it. -/
structure Message where
  streamPart : StreamPart
  timestamp : ℤ
  sequenceNo : SequenceNumber
  publisherId : String
  msgChainId : String
  payload : List UInt8
  storedAt : ℤ

/-- The row of a message in a bucket. -/
def Message.row (message : Message) (bucketId : BucketId) : DataRow :=
  (⟨message.streamPart, bucketId, message.timestamp, message.sequenceNo, message.publisherId,
    message.msgChainId⟩, ⟨some message.payload, some message.storedAt⟩)

/-- `store`: a message that finds no bucket is tried again later, which is another call. -/
def store (state : State) (message : Message) (now : ℤ) : State :=
  match getBucketId state.manager message.streamPart message.timestamp with
  | (some bucketId, manager) =>
    { state with
      manager := incrementBucket manager bucketId message.payload.length now
      buffered := state.buffered ++ [message.row bucketId] }
  | (none, manager) => { state with manager := manager }

/-- The `INSERT` statements of a batch. -/
def insertRows (data : StreamData) (rows : List DataRow) : StreamData :=
  rows.foldl (fun data row ↦ data.set row.1 row.2) data

/-- What can happen: `store` is called, the manager takes a step of its timers, rows are inserted, a
row is done with or dropped, the run takes a step, and time passes. -/
inductive Event
  | store (message : Message) (now : ℤ)
  | timer (event : BucketManager.Event)
  | insert (rows : List DataRow)
  | release (row : DataRow)
  | retain (index : ℕ) (answer : Option ℤ)
  | pass (milliseconds : ℕ)

/-- The step relation. -/
def step (package : HeapPackage) (options : BucketManagerOptions) (config : RetentionConfig)
    (state : State) : Event → Option State
  | .store message now => some (store state message now)
  | .timer event =>
    if isCall event then none
    else (BucketManager.step package options state.manager event).map fun manager ↦
      { state with manager := manager }
  | .insert rows =>
    if ∀ row ∈ rows, row ∈ state.buffered then
      some { state with data := insertRows state.data rows }
    else none
  | .release row =>
    if row ∈ state.buffered then some { state with buffered := state.buffered.erase row } else none
  | .retain index answer => retain config state index answer
  | .pass milliseconds => some { state with clock := state.clock + milliseconds }

/-! ### Undisturbed steps -/

/-- The buckets that the run has found to be expired and has not deleted yet. -/
def expiring : Phase → List BucketInfo
  | .filterExpiredBuckets _ result => result
  | .deleteExpired tasks => tasks
  | _ => []

/-- A bucket can be deleted: its row is still its own, and if rows of it are yet to be inserted,
then the manager is yet to write its row. -/
structure SafeToDelete (state : State) (bucket : BucketInfo) : Prop where
  row : ∀ columns, state.manager.table.get? ⟨bucket.streamPart, bucket.dateCreate⟩ = some columns →
    columns.id = bucket.bucketId
  buffered : ∀ row ∈ state.buffered, inBucket bucket.streamPart bucket.bucketId row.1 = true →
    Unwritten state.manager bucket.streamPart bucket.bucketId

/-- The condition on the steps. No row that is not expired is inserted into a bucket between the
reading of its newest timestamp and its deletion, a bucket that is deleted is safe to delete, and no
update of a bucket replaces the id of another. -/
def Undisturbed (state : State) : Event → Prop
  | .insert rows => ∀ row ∈ rows, ∀ bucket ∈ expiring state.phase,
    inBucket bucket.streamPart bucket.bucketId row.1 = true →
    row.1.timestamp < timestampBefore state.clock bucket.storageDays
  | .retain index answer => ∀ tasks bucket, state.phase = .deleteExpired tasks →
    tasks[index]? = some bucket → answer.isSome = true → SafeToDelete state bucket
  | .timer event => ReplacesNone state.manager event
  | _ => True

/-! ### The invariant -/

/-- The limits that the run works with have not been overtaken by the clock: what they take for
expired still is. -/
def WithinLimit (clock : ℤ) : Phase → Prop
  | .filterExpiredBuckets tasks _ =>
    ∀ task ∈ tasks, task.2 ≤ timestampBefore clock task.1.storageDays
  | .selectBuckets sweep => sweep.cutoff ≤ timestampBefore clock sweep.storageDays
  | .countRows sweep _ => sweep.cutoff ≤ timestampBefore clock sweep.storageDays
  | .deleteRows sweep _ _ => sweep.cutoff ≤ timestampBefore clock sweep.storageDays
  | _ => True

/-- The invariant. -/
structure Invariant (package : HeapPackage) (state : State) : Prop where
  tidy : Tidy package state.manager
  stored : ∀ row ∈ state.data.entries, Held state.manager row.1.streamPart row.1.bucketId
  buffered : ∀ row ∈ state.buffered, Held state.manager row.1.streamPart row.1.bucketId
  expired : ∀ bucket ∈ expiring state.phase, ∀ row ∈ state.data.entries,
    inBucket bucket.streamPart bucket.bucketId row.1 = true →
    row.1.timestamp < timestampBefore state.clock bucket.storageDays
  limit : WithinLimit state.clock state.phase
  removed : ∀ entry ∈ state.removed, entry.1.1.timestamp < entry.2

variable {package : HeapPackage} {options : BucketManagerOptions} {config : RetentionConfig}
  {state : State}

theorem timestampBefore_mono {clock later : ℤ} (hle : clock ≤ later) (storageDays : ℤ) :
    timestampBefore clock storageDays ≤ timestampBefore later storageDays :=
  Int.sub_le_sub_right hle _

theorem WithinLimit.mono {clock later : ℤ} (hle : clock ≤ later) {phase : Phase}
    (hlimit : WithinLimit clock phase) : WithinLimit later phase := by
  cases phase with
  | filterExpiredBuckets tasks result =>
    exact fun task htask ↦ (hlimit task htask).trans (timestampBefore_mono hle _)
  | selectBuckets sweep => exact le_trans hlimit (timestampBefore_mono hle _)
  | countRows sweep bucketIds => exact le_trans hlimit (timestampBefore_mono hle _)
  | deleteRows sweep bucketId bucketIds => exact le_trans hlimit (timestampBefore_mono hle _)
  | _ => trivial

/-- The run moves to another phase. -/
theorem Invariant.setPhase (hinvariant : Invariant package state) {phase : Phase}
    (hexpired : ∀ bucket ∈ expiring phase, ∀ row ∈ state.data.entries,
      inBucket bucket.streamPart bucket.bucketId row.1 = true →
      row.1.timestamp < timestampBefore state.clock bucket.storageDays)
    (hlimit : WithinLimit state.clock phase) :
    Invariant package { state with phase := phase } :=
  ⟨hinvariant.tidy, hinvariant.stored, hinvariant.buffered, hexpired, hlimit, hinvariant.removed⟩

/-- The manager moves on and no holding ends. -/
theorem Invariant.setManager (hinvariant : Invariant package state)
    {manager : BucketManager.State} (htidy : Tidy package manager)
    (hheld : ∀ {streamPart id}, Held state.manager streamPart id → Held manager streamPart id) :
    Invariant package { state with manager := manager } :=
  ⟨htidy, fun row hrow ↦ hheld (hinvariant.stored row hrow),
    fun row hrow ↦ hheld (hinvariant.buffered row hrow), hinvariant.expired, hinvariant.limit,
    hinvariant.removed⟩

/-! ### Steps of the writes -/

theorem Invariant.store (hinvariant : Invariant package state) (message : Message) (now : ℤ) :
    Invariant package (store state message now) := by
  have hfst := getBucketId_fst state.manager message.streamPart message.timestamp
  have htidy := tidy_getBucketId hinvariant.tidy message.streamPart message.timestamp
  obtain ⟨hbuckets, htable, -, -, hstore, -⟩ :=
    getBucketId_frame state.manager message.streamPart message.timestamp
  have hheld : ∀ {streamPart id}, Held state.manager streamPart id →
      Held (getBucketId state.manager message.streamPart message.timestamp).2 streamPart id :=
    fun hheld ↦ hheld.of_same htable hstore fun hbucket ↦ hbuckets ▸ hbucket
  unfold Retention.store
  cases hresult : getBucketId state.manager message.streamPart message.timestamp with
  | mk found manager =>
    rw [hresult] at hfst htidy hheld hbuckets
    cases found with
    | none => exact hinvariant.setManager htidy hheld
    | some bucketId =>
      obtain ⟨-, bucket, -, hbucket, hpart, -⟩ :=
        hinvariant.tidy.heaps.findBucketId_eq_some hfst.symm
      have hnew : Unwritten (incrementBucket manager bucketId message.payload.length now)
          message.streamPart bucketId :=
        unwritten_incrementBucket htidy (hbuckets ▸ hbucket) hpart _ now
      have hkept := hinvariant.setManager
        (tidy_incrementBucket htidy bucketId message.payload.length now)
        fun hold ↦ held_incrementBucket htidy (hheld hold) bucketId message.payload.length now
      refine ⟨hkept.tidy, hkept.stored, fun row hrow ↦ ?_, hkept.expired, hkept.limit,
        hkept.removed⟩
      rcases List.mem_append.mp hrow with hold | hadded
      · exact hkept.buffered row hold
      · rw [List.mem_singleton.mp hadded]
        exact Or.inr hnew

theorem mem_insertRows {data : StreamData} {rows : List DataRow} {row : DataRow}
    (hrow : row ∈ (insertRows data rows).entries) : row ∈ data.entries ∨ row ∈ rows := by
  induction rows generalizing data with
  | nil => exact Or.inl hrow
  | cons first rows ih =>
    rw [insertRows, List.foldl_cons] at hrow
    rcases ih hrow with hset | hrest
    · rcases OrderedMap.mem_entries_set.mp hset with heq | ⟨hold, -⟩
      · exact Or.inr (List.mem_cons.mpr (Or.inl heq))
      · exact Or.inl hold
    · exact Or.inr (List.mem_cons_of_mem _ hrest)

theorem Invariant.insert (hinvariant : Invariant package state) {rows : List DataRow}
    (hrows : ∀ row ∈ rows, row ∈ state.buffered)
    (hexpired : ∀ row ∈ rows, ∀ bucket ∈ expiring state.phase,
      inBucket bucket.streamPart bucket.bucketId row.1 = true →
      row.1.timestamp < timestampBefore state.clock bucket.storageDays) :
    Invariant package { state with data := insertRows state.data rows } := by
  refine ⟨hinvariant.tidy, fun row hrow ↦ ?_, hinvariant.buffered,
    fun bucket hbucket row hrow ↦ ?_, hinvariant.limit, hinvariant.removed⟩
  · rcases mem_insertRows hrow with hold | hnew
    · exact hinvariant.stored row hold
    · exact hinvariant.buffered row (hrows row hnew)
  · rcases mem_insertRows hrow with hold | hnew
    · exact hinvariant.expired bucket hbucket row hold
    · exact hexpired row hnew bucket hbucket

/-! ### Steps of the run -/

theorem mem_removeRows {selected : DataKey → Bool} {limit : ℤ} {row : DataRow} :
    row ∈ (state.removeRows selected limit).data.entries ↔
      row ∈ state.data.entries ∧ selected row.1 = false := by
  rw [State.removeRows, OrderedMap.filter, List.mem_filter, Bool.not_eq_true']

/-- Rows are removed that are expired. -/
theorem Invariant.removeRows (hinvariant : Invariant package state) {selected : DataKey → Bool}
    {limit : ℤ} (hselected : ∀ row ∈ state.data.entries, selected row.1 = true →
      row.1.timestamp < limit) : Invariant package (state.removeRows selected limit) := by
  refine ⟨hinvariant.tidy, fun row hrow ↦ ?_, hinvariant.buffered,
    fun bucket hbucket row hrow ↦ ?_, hinvariant.limit, fun entry hentry ↦ ?_⟩
  · exact hinvariant.stored row (mem_removeRows.mp hrow).1
  · exact hinvariant.expired bucket hbucket row (mem_removeRows.mp hrow).1
  · rcases List.mem_append.mp hentry with hold | hnew
    · exact hinvariant.removed entry hold
    · obtain ⟨row, hrow, rfl⟩ := List.mem_map.mp hnew
      obtain ⟨hmem, hchosen⟩ := List.mem_filter.mp hrow
      exact hselected row hmem hchosen

/-- A bucket that was found to be expired has only expired rows. -/
theorem timestamp_lt_of_isExpired {data : StreamData} {bucket : BucketInfo} {before : ℤ}
    (hexpired : isExpired data bucket before = true) {row : DataRow} (hrow : row ∈ data.entries)
    (hbucket : inBucket bucket.streamPart bucket.bucketId row.1 = true) :
    row.1.timestamp < before := by
  obtain ⟨hpart, hid⟩ := of_decide_eq_true hbucket
  have hmem : row.1.timestamp ∈ (data.select bucket.streamPart [bucket.bucketId] fun _ ↦ true).map
      fun row ↦ row.1.timestamp := by
    refine List.mem_map.mpr ⟨row, StreamData.mem_select.mpr ⟨hrow, hpart, ?_, rfl⟩, rfl⟩
    rw [hid]
    exact List.mem_singleton_self _
  unfold isExpired at hexpired
  cases hmax : maxTimestamp data bucket with
  | none =>
    rw [maxTimestamp, List.max?_eq_none_iff] at hmax
    rw [hmax] at hmem
    cases hmem
  | some newest =>
    simp only [hmax, decide_eq_true_eq] at hexpired
    have hle := (List.max?_eq_some_iff.mp hmax).2 _ hmem
    exact hle.trans_lt hexpired

/-- A bucket is deleted that was found to be expired and is safe to delete. -/
theorem Invariant.deleteBucket (hinvariant : Invariant package state) {bucket : BucketInfo}
    (hsafe : SafeToDelete state bucket)
    (hexpired : ∀ row ∈ state.data.entries,
      inBucket bucket.streamPart bucket.bucketId row.1 = true →
      row.1.timestamp < timestampBefore state.clock bucket.storageDays) :
    Invariant package (state.deleteBucket bucket) := by
  have htidy : Tidy package { state.manager with
      table := state.manager.table.delete ⟨bucket.streamPart, bucket.dateCreate⟩ } := by
    refine hinvariant.tidy.of_store rfl rfl rfl rfl (fun {key columns} hcolumns ↦ ?_)
      fun hitems ↦ hinvariant.tidy.current hitems
    by_cases heq : key = ⟨bucket.streamPart, bucket.dateCreate⟩
    · rw [heq, OrderedMap.get?_delete_self] at hcolumns
      cases hcolumns
    · rw [OrderedMap.get?_delete_of_ne _ heq] at hcolumns
      exact hinvariant.tidy.rows_used hcolumns
  -- only the id of the bucket itself can lose its row
  have hheld : ∀ {streamPart id}, Held state.manager streamPart id →
      (streamPart = bucket.streamPart → id = bucket.bucketId →
        Unwritten state.manager streamPart id) →
      Held { state.manager with
        table := state.manager.table.delete ⟨bucket.streamPart, bucket.dateCreate⟩ }
        streamPart id := by
    rintro streamPart id (⟨date, columns, hrow, hid⟩ | hunwritten) hown
    · by_cases heq : (⟨streamPart, date⟩ : BucketKey) = ⟨bucket.streamPart, bucket.dateCreate⟩
      · rw [heq] at hrow
        refine Or.inr (hown (BucketKey.mk.inj heq).1 ?_)
        rw [← hid]
        exact hsafe.row columns hrow
      · exact Or.inl ⟨date, columns, (OrderedMap.get?_delete_of_ne _ heq).trans hrow, hid⟩
    · exact Or.inr hunwritten
  refine ⟨htidy, fun row hrow ↦ ?_, fun row hrow ↦ ?_, fun other hother row hrow ↦ ?_,
    hinvariant.limit, fun entry hentry ↦ ?_⟩
  · obtain ⟨hmem, hkept⟩ := mem_removeRows.mp hrow
    refine hheld (hinvariant.stored row hmem) fun hpart hid ↦ ?_
    rw [inBucket, decide_eq_false_iff_not] at hkept
    exact absurd ⟨hpart, hid⟩ hkept
  · refine hheld (hinvariant.buffered row hrow) fun hpart hid ↦ ?_
    rw [hpart, hid]
    exact hsafe.buffered row hrow (decide_eq_true ⟨hpart, hid⟩)
  · exact hinvariant.expired other hother row (mem_removeRows.mp hrow).1
  · rcases List.mem_append.mp hentry with hold | hnew
    · exact hinvariant.removed entry hold
    · obtain ⟨row, hrow, rfl⟩ := List.mem_map.mp hnew
      obtain ⟨hmem, hchosen⟩ := List.mem_filter.mp hrow
      exact hexpired row hmem hchosen

/-- `filterExpiredBuckets` reads the newest timestamp of a bucket: what it finds to be expired is so
by the limit of the task, and by that of now. -/
theorem Invariant.filterExpiredBucket (hinvariant : Invariant package state)
    {tasks : List (BucketInfo × ℤ)} {result : List BucketInfo} {index : ℕ} {task : BucketInfo × ℤ}
    (hphase : state.phase = .filterExpiredBuckets tasks result)
    (htask : tasks[index]? = some task) (answer : Option ℤ) :
    Invariant package { state with
      phase := .filterExpiredBuckets (tasks.eraseIdx index)
        (if answer.isSome ∧ isExpired state.data task.1 task.2 = true then result ++ [task.1]
          else result) } := by
  have hexpired := hinvariant.expired
  have hlimit := hinvariant.limit
  rw [hphase] at hexpired hlimit
  refine hinvariant.setPhase (fun bucket hbucket row hrow hinBucket ↦ ?_) fun other hother ↦ ?_
  · simp only [expiring] at hbucket
    split_ifs at hbucket with hfound
    · rcases List.mem_append.mp hbucket with hold | hnew
      · exact hexpired bucket hold row hrow hinBucket
      · obtain rfl := List.mem_singleton.mp hnew
        have hlt := timestamp_lt_of_isExpired hfound.2 hrow hinBucket
        exact hlt.trans_le (hlimit task (List.mem_of_getElem? htask))
    · exact hexpired bucket hbucket row hrow hinBucket
  · exact hlimit other (List.mem_of_mem_eraseIdx hother)

/-- `deleteExpired` deletes a bucket, or fails to. -/
theorem Invariant.deleteExpiredBucket (hinvariant : Invariant package state)
    {tasks : List BucketInfo} {index : ℕ} {bucket : BucketInfo} {answer : Option ℤ}
    (hphase : state.phase = .deleteExpired tasks) (hbucket : tasks[index]? = some bucket)
    (hsafe : answer.isSome = true → SafeToDelete state bucket) :
    Invariant package (
      let after := { state with phase := .deleteExpired (tasks.eraseIdx index) }
      if answer.isSome then after.deleteBucket bucket else after) := by
  have hexpired := hinvariant.expired
  rw [hphase] at hexpired
  have hnext : Invariant package { state with phase := .deleteExpired (tasks.eraseIdx index) } :=
    hinvariant.setPhase (fun other hother ↦ hexpired other (List.mem_of_mem_eraseIdx hother))
      trivial
  dsimp only
  split_ifs with hanswer
  · have hsafe := hsafe hanswer
    exact hnext.deleteBucket ⟨hsafe.row, hsafe.buffered⟩
      (hexpired bucket (List.mem_of_getElem? hbucket))
  · exact hnext

/-- `rowSweep` deletes the rows of a bucket that are before its cutoff. -/
theorem Invariant.deleteRows (hinvariant : Invariant package state) {sweep : Sweep}
    {bucketId : BucketId} {bucketIds : List BucketId}
    (hphase : state.phase = .deleteRows sweep bucketId bucketIds) :
    Invariant package (State.removeRows { state with phase := .countRows sweep bucketIds }
      (fun key ↦ inBucket sweep.streamPart bucketId key && key.timestamp < sweep.cutoff)
      (timestampBefore state.clock sweep.storageDays)) := by
  have hlimit := hinvariant.limit
  rw [hphase] at hlimit
  have hnext : Invariant package { state with phase := .countRows sweep bucketIds } :=
    hinvariant.setPhase nofun hlimit
  refine hnext.removeRows fun row _ hselected ↦ ?_
  have hlt := of_decide_eq_true ((Bool.and_eq_true _ _).mp hselected).2
  exact lt_of_lt_of_le hlt hlimit

/-- Every step of the run keeps the invariant, if the buckets it deletes are safe to delete. -/
theorem Invariant.retain (hinvariant : Invariant package state) {index : ℕ} {answer : Option ℤ}
    {after : State}
    (hsafe : ∀ tasks bucket, state.phase = .deleteExpired tasks → tasks[index]? = some bucket →
      answer.isSome = true → SafeToDelete state bucket)
    (hretain : retain config state index answer = some after) : Invariant package after := by
  have hexpired := hinvariant.expired
  have hlimit := hinvariant.limit
  unfold Retention.retain at hretain
  split at hretain
  · cases hretain
    exact hinvariant.setPhase (List.forall_mem_nil _) trivial
  · cases hretain
    exact hinvariant.setPhase (List.forall_mem_nil _) trivial
  · obtain ⟨streamPart, -, rfl⟩ := Option.map_eq_some_iff.mp hretain
    exact hinvariant.setPhase (List.forall_mem_nil _) trivial
  · -- the limits of the tasks are computed now
    cases hretain
    refine hinvariant.setPhase (List.forall_mem_nil _) fun task htask ↦ ?_
    obtain ⟨bucket, -, rfl⟩ := List.mem_map.mp htask
    exact le_rfl
  · obtain ⟨task, -, rfl⟩ := Option.map_eq_some_iff.mp hretain
    exact hinvariant.setPhase (List.forall_mem_nil _) trivial
  · rename_i result hphase
    cases hretain
    rw [hphase] at hexpired
    exact hinvariant.setPhase hexpired trivial
  · rename_i hphase
    obtain ⟨task, htask, rfl⟩ := Option.map_eq_some_iff.mp hretain
    exact hinvariant.filterExpiredBucket hphase htask answer
  · cases hretain
    exact hinvariant.setPhase (List.forall_mem_nil _) trivial
  · rename_i hphase
    obtain ⟨bucket, hbucket, rfl⟩ := Option.map_eq_some_iff.mp hretain
    exact hinvariant.deleteExpiredBucket hphase hbucket (hsafe _ bucket hphase hbucket)
  · cases hretain
    exact hinvariant.setPhase (List.forall_mem_nil _) trivial
  · obtain ⟨streamId, -, rfl⟩ := Option.map_eq_some_iff.mp hretain
    exact hinvariant.setPhase (List.forall_mem_nil _) trivial
  · cases hretain
    exact hinvariant.setPhase (List.forall_mem_nil _) trivial
  · split_ifs at hretain
    · cases hretain
      exact hinvariant.setPhase (List.forall_mem_nil _) trivial
    · split at hretain
      · cases hretain
        exact hinvariant.setPhase (List.forall_mem_nil _) trivial
      · cases hretain
        exact hinvariant.setPhase (List.forall_mem_nil _) le_rfl
  · rename_i sweep hphase
    rw [hphase] at hlimit
    split_ifs at hretain <;> cases hretain
    · exact hinvariant.setPhase (List.forall_mem_nil _) hlimit
    · exact hinvariant.setPhase (List.forall_mem_nil _) trivial
  · cases hretain
    exact hinvariant.setPhase (List.forall_mem_nil _) trivial
  · rename_i sweep bucketId bucketIds hphase
    rw [hphase] at hlimit
    dsimp only at hretain
    split_ifs at hretain <;> cases hretain
    · exact hinvariant.setPhase (List.forall_mem_nil _) trivial
    · exact hinvariant.setPhase (List.forall_mem_nil _) hlimit
    · exact hinvariant.setPhase (List.forall_mem_nil _) trivial
    · exact hinvariant.setPhase (List.forall_mem_nil _) hlimit
  · rename_i hphase
    split_ifs at hretain <;> cases hretain
    · exact hinvariant.deleteRows hphase
    · exact hinvariant.setPhase (List.forall_mem_nil _) trivial

/-! ### Runs -/

/-- The node right after its start, on tables in which every row is in a bucket that is listed. -/
structure Start (state : State) : Prop where
  buckets : state.manager.buckets = OrderedMap.empty
  streamParts : state.manager.streamParts = OrderedMap.empty
  check : state.manager.check = none
  store : state.manager.store = none
  used : ∀ {key columns}, state.manager.table.get? key = some columns →
    columns.id ∈ state.manager.usedIds
  listed : ∀ row ∈ state.data.entries, Listed state.manager row.1.streamPart row.1.bucketId
  buffered : state.buffered = []
  phase : state.phase = .idle
  removed : state.removed = []

theorem Start.invariant (hstart : Start state) : Invariant package state := by
  have htidy : Tidy package state.manager := by
    refine ⟨HeapCoherent.of_empty hstart.buckets hstart.streamParts, fun hbucket ↦ ?_,
      hstart.used, fun hrun ↦ ?_, fun hitems ↦ ?_⟩
    · rw [hstart.buckets, OrderedMap.get?_empty] at hbucket
      cases hbucket
    · rw [hstart.check] at hrun
      cases hrun
    · rw [hstart.store] at hitems
      cases hitems
  refine ⟨htidy, fun row hrow ↦ Or.inl (hstart.listed row hrow), ?_, ?_, ?_, ?_⟩
  · rw [hstart.buffered]
    exact nofun
  · rw [hstart.phase]
    exact nofun
  · rw [hstart.phase]
    exact trivial
  · rw [hstart.removed]
    exact nofun

/-- Every undisturbed step keeps the invariant. -/
theorem Invariant.step {event : Event} {after : State} (hinvariant : Invariant package state)
    (hundisturbed : Undisturbed state event)
    (hstep : Retention.step package options config state event = some after) :
    Invariant package after := by
  cases event with
  | store message now =>
    cases hstep
    exact hinvariant.store message now
  | timer event =>
    simp only [Retention.step] at hstep
    split_ifs at hstep
    obtain ⟨manager, hmanager, rfl⟩ := Option.map_eq_some_iff.mp hstep
    exact hinvariant.setManager (hinvariant.tidy.step hmanager) fun hheld ↦
      held_step hinvariant.tidy hundisturbed hheld hmanager
  | insert rows =>
    simp only [Retention.step] at hstep
    split_ifs at hstep with hrows
    cases hstep
    exact hinvariant.insert hrows hundisturbed
  | release row =>
    simp only [Retention.step] at hstep
    split_ifs at hstep
    cases hstep
    exact ⟨hinvariant.tidy, hinvariant.stored,
      fun other hother ↦ hinvariant.buffered other (List.mem_of_mem_erase hother),
      hinvariant.expired, hinvariant.limit, hinvariant.removed⟩
  | retain index answer => exact hinvariant.retain hundisturbed hstep
  | pass milliseconds =>
    cases hstep
    have hle : state.clock ≤ state.clock + milliseconds := by omega
    refine ⟨hinvariant.tidy, hinvariant.stored, hinvariant.buffered,
      fun bucket hbucket row hrow hinBucket ↦ ?_, hinvariant.limit.mono hle, hinvariant.removed⟩
    exact (hinvariant.expired bucket hbucket row hrow hinBucket).trans_le
      (timestampBefore_mono hle _)

/-- In every run whose steps are undisturbed, a row that the retention run removed was before
`now - storageDays`, and once the manager has no bucket left to write, every row is in a bucket that
the table lists.
Assumes: the state is reached by such a run. -/
theorem removed_expired_and_rows_listed
    (hreachable : Transition.Reachable (step package options config) Undisturbed Start state) :
    (∀ entry ∈ state.removed, entry.1.1.timestamp < entry.2) ∧
      ((∀ id bucket, state.manager.buckets.get? id = some bucket → bucket.stored = true) →
        ∀ row ∈ state.data.entries, ∃ date columns,
          state.manager.table.get? ⟨row.1.streamPart, date⟩ = some columns ∧
            columns.id = row.1.bucketId) := by
  have hinvariant : Invariant package state :=
    hreachable.invariant (fun _ hstart ↦ hstart.invariant)
      fun _ _ _ _ hinvariant hundisturbed hstep ↦ hinvariant.step hundisturbed hstep
  refine ⟨hinvariant.removed, fun hwritten row hrow ↦ ?_⟩
  rcases hinvariant.stored row hrow with hlisted | ⟨bucket, hbucket, -, hstored, -⟩
  · exact hlisted
  · rw [hwritten _ bucket hbucket] at hstored
    cases hstored

/-! ### Writes beside a run -/

/-- A message of the stream part with an empty payload. -/
def messageAt (timestamp : ℤ) : Message :=
  ⟨BucketDates.stream, timestamp, ⟨0, zero_sequenceNumber⟩, "publisher", "chain", [], timestamp⟩

/-- A node on tables with one bucket and an old row in it, about 28 hours after the epoch. -/
def newNode : State where
  manager := { BucketDates.newManager with
    table := OrderedMap.empty.set ⟨BucketDates.stream, 1000⟩ ⟨"old", 1, 0⟩
    usedIds := ["old"] }
  data := OrderedMap.empty.set ((messageAt 1000).row "old").1 ((messageAt 1000).row "old").2
  buffered := []
  clock := 100000000
  phase := .idle
  removed := []

theorem start_newNode : Start newNode := by
  have hrow : newNode.manager.table.get? ⟨BucketDates.stream, 1000⟩ = some ⟨"old", 1, 0⟩ :=
    OrderedMap.get?_set_self _ _ _
  refine ⟨rfl, rfl, rfl, rfl, fun {key columns} hcolumns ↦ ?_, fun row hmem ↦ ?_, rfl, rfl, rfl⟩
  · have hmem : (key, columns) ∈ [((⟨BucketDates.stream, 1000⟩ : BucketKey),
        (⟨"old", 1, 0⟩ : BucketColumns))] := OrderedMap.get?_eq_some_iff.mp hcolumns
    rw [List.mem_singleton, Prod.mk.injEq] at hmem
    rw [hmem.2]
    exact List.mem_singleton_self _
  · have hmem : row ∈ [(messageAt 1000).row "old"] := hmem
    rw [List.mem_singleton] at hmem
    rw [hmem]
    exact ⟨1000, ⟨"old", 1, 0⟩, hrow, rfl⟩

/-- Up to ten buckets and ten rows a run. -/
def tenEach : RetentionConfig := ⟨10, 10⟩

/-- The bucket is loaded for a first message, which goes to it. -/
def loadAndStore : List Event :=
  [.store (messageAt 99000000) 0, .timer .beginCheck, .timer .takeUp, .timer (.evaluate 0),
    .timer (.resume "new" 0), .timer .takeUp, .store (messageAt 99000000) 0]

/-- The row of the bucket is written. -/
def writeBuckets : List Event :=
  [.timer .beginStore, .timer (.applyUpdate 0), .timer (.settleUpdate 0 true),
    .timer (.endStore 0)]

/-- The run, with one day of storage, up to the reading of the newest timestamp. -/
def readNewest : List Event :=
  [.retain 0 (some 0), .retain 0 (some 1), .retain 0 (some 0), .retain 0 (some 0),
    .retain 0 (some 0), .retain 0 (some 0), .retain 0 (some 0)]

/-- The row sweep, over one stream part with one bucket. -/
def sweepRows : List Event :=
  [.retain 0 (some 0), .retain 0 (some 1), .retain 0 (some 0), .retain 0 (some 0),
    .retain 0 (some 0), .retain 0 (some 0), .retain 0 (some 0), .retain 0 (some 0),
    .retain 0 (some 0)]

/-- A row is inserted and done with. -/
def insertOne (timestamp : ℤ) : List Event :=
  [.insert [(messageAt timestamp).row "old"], .release ((messageAt timestamp).row "old")]

/-- A check of the condition on a step, for steps that delete no bucket and insert nothing while
one is about to be deleted. -/
def checkUndisturbed (state : State) : Event → Bool
  | .insert _ => (expiring state.phase).isEmpty
  | .retain _ answer => (expiring state.phase).isEmpty || answer.isNone
  | .timer (.applyUpdate index) => (state.manager.store.bind fun items ↦ items[index]?).all
    fun item ↦ (state.manager.table.get? item.key).all fun columns ↦
      columns.id = item.columns.id
  | _ => true

theorem undisturbed_of_checkUndisturbed (state : State) (event : Event)
    (hcheck : checkUndisturbed state event = true) : Undisturbed state event := by
  cases event with
  | insert rows =>
    intro row _ bucket hbucket
    rw [List.isEmpty_iff.mp hcheck] at hbucket
    cases hbucket
  | retain index answer =>
    intro tasks bucket hphase hbucket hanswer
    rcases (Bool.or_eq_true _ _).mp hcheck with hempty | hnone
    · rw [hphase] at hempty
      have htasks : tasks = [] := List.isEmpty_iff.mp hempty
      rw [htasks] at hbucket
      cases hbucket
    · rw [Option.isNone_iff_eq_none.mp hnone] at hanswer
      cases hanswer
  | timer event =>
    cases event with
    | applyUpdate index =>
      intro items item columns hstore hitem hrow
      simp only [checkUndisturbed, hstore, Option.bind_some, hitem, Option.all_some, hrow,
        decide_eq_true_eq] at hcheck
      exact hcheck
    | _ => trivial
  | _ => trivial

/-- When the new row is inserted before the run, the run removes the old row, and the bucket
stays. -/
theorem removed_expired_and_rows_listed_swept : ∃ state,
    Transition.checkedRun (step BucketDates.rootedHeap defaultBucketManagerOptions tenEach)
        checkUndisturbed newNode
        (loadAndStore ++ insertOne 99000000 ++ writeBuckets ++ readNewest ++ sweepRows) =
      some state ∧
      state.removed = [((messageAt 1000).row "old", 13600000)] ∧
      state.data.entries = [(messageAt 99000000).row "old"] ∧
      ∀ entry ∈ state.removed, entry.1.1.timestamp < entry.2 := by
  have hrun : (Transition.checkedRun
      (step BucketDates.rootedHeap defaultBucketManagerOptions tenEach) checkUndisturbed newNode
      (loadAndStore ++ insertOne 99000000 ++ writeBuckets ++ readNewest ++ sweepRows)).map
        (fun state ↦ (state.removed, state.data.entries)) =
      some ([((messageAt 1000).row "old", 13600000)], [(messageAt 99000000).row "old"]) := by
    decide +kernel
  obtain ⟨state, hstate, hfacts⟩ := Option.map_eq_some_iff.mp hrun
  obtain ⟨hremoved, hdata⟩ := Prod.mk.inj hfacts
  have hreachable := Transition.Reachable.of_checkedRun _ undisturbed_of_checkUndisturbed
    (.start start_newNode) hstate
  exact ⟨state, hstate, hremoved, hdata, (removed_expired_and_rows_listed hreachable).1⟩

/-- A run in which one row is inserted before the deletion of its bucket and another one after. -/
def overtakingRun : Option State :=
  Transition.run (step BucketDates.rootedHeap defaultBucketManagerOptions tenEach) newNode
    (loadAndStore ++ [.store (messageAt 99000001) 0] ++ writeBuckets ++ readNewest ++
      insertOne 99000000 ++ [.retain 0 (some 0)] ++ insertOne 99000001)

/-- Two new rows are handed over and the row of their bucket is written; the run reads the newest
timestamp of the bucket; the first row is inserted; the run deletes the bucket; the second row is
inserted. The run has removed a row that is not a day old, and a row is left in a bucket that the
table does not list, although the manager has nothing left to write. -/
theorem writtenBesideRetention : ∃ state,
    Transition.Reachable (step BucketDates.rootedHeap defaultBucketManagerOptions tenEach)
        (fun _ _ ↦ True) Start state ∧
      ((messageAt 99000000).row "old", 13600000) ∈ state.removed ∧
      ¬ ((messageAt 99000000).row "old").1.timestamp < 13600000 ∧
      (∀ id bucket, state.manager.buckets.get? id = some bucket → bucket.stored = true) ∧
      state.manager.store = none ∧
      (messageAt 99000001).row "old" ∈ state.data.entries ∧
      ¬ Listed state.manager BucketDates.stream "old" := by
  have hrows : overtakingRun.map (fun state ↦ (state.removed, state.data.entries)) =
      some ([((messageAt 1000).row "old", 13600000), ((messageAt 99000000).row "old", 13600000)],
        [(messageAt 99000001).row "old"]) := by
    decide +kernel
  have hbooks : overtakingRun.map (fun state ↦ state.manager.table.entries.isEmpty &&
      state.manager.store.isNone && state.manager.buckets.values.all Bucket.stored) =
      some true := by
    decide +kernel
  obtain ⟨state, hstate, hfacts⟩ := Option.map_eq_some_iff.mp hrows
  rw [hstate, Option.map_some, Option.some.injEq] at hbooks
  simp only [Bool.and_eq_true, List.isEmpty_iff, List.all_eq_true,
    Option.isNone_iff_eq_none] at hbooks
  obtain ⟨hremoved, hdata⟩ := Prod.mk.inj hfacts
  obtain ⟨⟨htable, hstore⟩, hstored⟩ := hbooks
  refine ⟨state, Transition.Reachable.of_run _ (fun _ _ _ ↦ trivial) (.start start_newNode) hstate,
    ?_, by decide, fun id bucket hbucket ↦ ?_, hstore, ?_, ?_⟩
  · rw [hremoved]
    exact List.mem_cons_of_mem _ List.mem_cons_self
  · exact hstored bucket (List.mem_map.mpr ⟨_, OrderedMap.get?_eq_some_iff.mp hbucket, rfl⟩)
  · rw [hdata]
    exact List.mem_singleton_self _
  · rintro ⟨date, columns, hrow, -⟩
    rw [OrderedMap.get?_eq_some_iff, htable] at hrow
    cases hrow

end PomboStorageNode.Storage.Retention
