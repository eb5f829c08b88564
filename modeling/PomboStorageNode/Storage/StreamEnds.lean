import PomboStorageNode.Storage.Retention
import PomboStorageNode.Storage.StreamMetadata

/-!
# The first and the last message

The metadata of a stream part report the first timestamp in its first bucket and the last one in its
last bucket. Those are the ends of the stream part as long as the extreme buckets hold the extreme
messages (`HoldsEnd`, `isEnd_iff`), and nothing in the node makes sure of that: a new bucket has its
row in the table before it has messages or after, messages that come late go to buckets that overlap
others, and purges, the row sweep and the deletion of buckets take messages and buckets away.

The two tables are changed by a few statements (`Statement`), and what a step of the node does to
them is one of these (`tables_step`). `holdsEnd_perform_iff` says for each which ones leave the
extreme messages in the extreme buckets, and `ends_reported` is the result over whole runs of the
node whose statements all do. `emptiedNewestBucket` is a run in which the only message of the newest
bucket is purged.
-/

set_option autoImplicit false

namespace PomboStorageNode.Storage.StreamEnds

open Library Tables StreamMetadata

/-! ### The statements -/

/-- The two tables. -/
structure StoredTables where
  buckets : BucketTable
  data : StreamData

/-- What changes them: the update of the row of a bucket, the inserts of a batch, a `DELETE` on
`stream_data`, and the batch that deletes a bucket and its messages. -/
inductive Statement
  | updateBucket (key : BucketKey) (columns : BucketColumns)
  | insert (rows : List DataRow)
  | delete (selected : DataKey → Bool)
  | deleteBucket (key : BucketKey) (selected : DataKey → Bool)

/-- The tables after a statement. -/
def StoredTables.perform (tables : StoredTables) : Statement → StoredTables
  | .updateBucket key columns => { tables with buckets := tables.buckets.set key columns }
  | .insert rows => { tables with data := Retention.insertRows tables.data rows }
  | .delete selected => { tables with data := tables.data.filter fun row ↦ !selected row.1 }
  | .deleteBucket key selected =>
    ⟨tables.buckets.delete key, tables.data.filter fun row ↦ !selected row.1⟩

/-! ### The node -/

/-- What can happen: a step of the node with its retention run, a purge deletes a message, and a
sweep deletes a bucket. -/
inductive Event
  | node (event : Retention.Event)
  | deleteMessage (key : DataKey)
  | deleteBucket (bucket : Retention.BucketInfo)

/-- The step relation. -/
def step (package : BucketManager.HeapPackage) (options : BucketManagerOptions)
    (config : Retention.RetentionConfig) (state : Retention.State) :
    Event → Option Retention.State
  | .node event => Retention.step package options config state event
  | .deleteMessage key => some { state with data := state.data.delete key }
  | .deleteBucket bucket => some (state.deleteBucket bucket)

/-- The tables of the node. -/
def tablesOf (state : Retention.State) : StoredTables := ⟨state.manager.table, state.data⟩

/-- The batch for a bucket. -/
def deleteBucketStatement (bucket : Retention.BucketInfo) : Statement :=
  .deleteBucket ⟨bucket.streamPart, bucket.dateCreate⟩
    (Retention.inBucket bucket.streamPart bucket.bucketId)

/-- The statement that a step of the retention run executes. -/
def retentionStatement (phase : Retention.Phase) (index : ℕ) (answer : Option ℤ) :
    Option Statement :=
  match phase with
  | .deleteExpired tasks =>
    if answer.isSome then tasks[index]?.map deleteBucketStatement else none
  | .deleteRows sweep bucketId _ =>
    if answer.isSome then some (.delete fun key ↦
      Retention.inBucket sweep.streamPart bucketId key && key.timestamp < sweep.cutoff)
    else none
  | _ => none

/-- The statement that a step executes. -/
def statementOf (state : Retention.State) : Event → Option Statement
  | .node (.timer event) => (BucketManager.appliedUpdate state.manager event).map fun item ↦
    .updateBucket item.key item.columns
  | .node (.insert rows) => some (.insert rows)
  | .node (.retain index answer) => retentionStatement state.phase index answer
  | .node _ => none
  | .deleteMessage key => some (.delete fun other ↦ other = key)
  | .deleteBucket bucket => some (deleteBucketStatement bucket)

variable {package : BucketManager.HeapPackage} {options : BucketManagerOptions}
  {config : Retention.RetentionConfig} {state after : Retention.State}

theorem tables_store (state : Retention.State) (message : Retention.Message) (now : ℤ) :
    tablesOf (Retention.store state message now) = tablesOf state := by
  have htable : (BucketManager.getBucketId state.manager message.streamPart
      message.timestamp).2.table = state.manager.table :=
    (BucketManager.getBucketId_frame state.manager message.streamPart message.timestamp).2.1
  unfold Retention.store
  split <;> rename_i hresult <;> rw [hresult] at htable
  · simp only [tablesOf, BucketManager.incrementBucket]
    split <;> simp only [← htable]
  · simp only [tablesOf, ← htable]

/-- The retention run changes the tables by its statement. -/
theorem tables_retain {index : ℕ} {answer : Option ℤ}
    (hretain : Retention.retain config state index answer = some after) :
    tablesOf after = match retentionStatement state.phase index answer with
      | some statement => (tablesOf state).perform statement
      | none => tablesOf state := by
  unfold Retention.retain at hretain
  split at hretain <;> rename_i hphase <;> rw [hphase]
  case h_8 =>
    -- no bucket is left to be deleted
    cases hretain
    simp only [retentionStatement, List.getElem?_nil, Option.map_none, ite_self]
    rfl
  case h_9 =>
    obtain ⟨bucket, hbucket, rfl⟩ := Option.map_eq_some_iff.mp hretain
    simp only [retentionStatement, hbucket]
    split_ifs <;> rfl
  case h_17 =>
    simp only [retentionStatement]
    split_ifs at hretain ⊢ <;> cases hretain <;> rfl
  case h_13 =>
    split_ifs at hretain
    · cases hretain
      rfl
    · split at hretain <;> cases hretain <;> rfl
  case h_14 =>
    split_ifs at hretain <;> cases hretain <;> rfl
  case h_16 =>
    dsimp only at hretain
    split_ifs at hretain <;> cases hretain <;> rfl
  case h_1 | h_2 | h_4 | h_6 | h_10 | h_12 | h_15 =>
    cases hretain
    rfl
  all_goals
    obtain ⟨task, -, rfl⟩ := Option.map_eq_some_iff.mp hretain
    rfl

/-- A step changes the tables by its statement. -/
theorem tables_step {event : Event} (hstep : step package options config state event = some after) :
    tablesOf after = match statementOf state event with
      | some statement => (tablesOf state).perform statement
      | none => tablesOf state := by
  cases event with
  | node event =>
    cases event with
    | store message now =>
      cases hstep
      exact tables_store state message now
    | timer event =>
      simp only [step, Retention.step] at hstep
      split_ifs at hstep
      obtain ⟨manager, hmanager, rfl⟩ := Option.map_eq_some_iff.mp hstep
      have htable := BucketManager.table_step hmanager
      simp only [statementOf, tablesOf, htable]
      cases BucketManager.appliedUpdate state.manager event <;> rfl
    | insert rows =>
      simp only [step, Retention.step] at hstep
      split_ifs at hstep
      cases hstep
      rfl
    | release row =>
      simp only [step, Retention.step] at hstep
      split_ifs at hstep
      cases hstep
      rfl
    | retain index answer => exact tables_retain hstep
    | pass milliseconds =>
      cases hstep
      rfl
  | deleteMessage key =>
    cases hstep
    simp [statementOf, tablesOf, StoredTables.perform, OrderedMap.delete]
  | deleteBucket bucket =>
    cases hstep
    rfl

/-! ### The ends of a stream part -/

/-- A message with this key is stored. -/
def StoredTables.Stores (tables : StoredTables) (key : DataKey) : Prop :=
  ∃ columns, tables.data.get? key = some columns

/-- The value that is reported for an end of a stream part is right: it is zero exactly when the
part has no messages, and otherwise it is the first timestamp of a message in the order. -/
structure IsEnd (order : SortOrder) (tables : StoredTables) (streamPart : StreamPart)
    (value : ℤ) : Prop where
  eq_zero_iff : value = 0 ↔ ∀ key, tables.Stores key → key.streamPart ≠ streamPart
  attained : ∀ key, tables.Stores key → key.streamPart = streamPart →
    ∃ other, tables.Stores other ∧ other.streamPart = streamPart ∧ other.timestamp = value
  precedes : ∀ key, tables.Stores key → key.streamPart = streamPart →
    order.Precedes value key.timestamp

/-- The first bucket of the stream part in the order holds a message that satisfies a condition and
comes no later than the given one. -/
def FirstBucketHolds (order : SortOrder) (buckets : BucketTable) (held : DataKey → Prop)
    (key : DataKey) : Prop :=
  ∃ bucket other, order.FirstBucket buckets key.streamPart bucket ∧ held other ∧
    other.streamPart = key.streamPart ∧ other.bucketId = bucket.columns.id ∧
      order.Precedes other.timestamp key.timestamp

/-- Of every stream part, the first bucket in the order holds a first message. -/
def HoldsEnd (order : SortOrder) (tables : StoredTables) : Prop :=
  ∀ key, tables.Stores key → FirstBucketHolds order tables.buckets tables.Stores key

/-! ### When the ends are right -/

variable {order : SortOrder} {tables : StoredTables} {streamPart : StreamPart}

theorem mem_select_bucket {bucketId : BucketId} {timestamp : ℤ} :
    timestamp ∈ (tables.data.select streamPart [bucketId] fun _ ↦ true).map
        (fun row ↦ row.1.timestamp) ↔
      ∃ key, tables.Stores key ∧ key.streamPart = streamPart ∧ key.bucketId = bucketId ∧
        key.timestamp = timestamp := by
  simp only [List.mem_map, StreamData.mem_select, List.mem_singleton, and_true,
    StoredTables.Stores, OrderedMap.get?_eq_some_iff]
  constructor
  · rintro ⟨row, ⟨hrow, hpart, hid⟩, htime⟩
    exact ⟨row.1, ⟨row.2, hrow⟩, hpart, hid, htime⟩
  · rintro ⟨key, ⟨columns, hrow⟩, hpart, hid, htime⟩
    exact ⟨(key, columns), ⟨hrow, hpart, hid⟩, htime⟩

/-- What is reported for an end: zero, when the first bucket in the order has no messages, and
otherwise the first timestamp in it. -/
theorem getMessageTimestamp_cases (order : SortOrder) (tables : StoredTables)
    (streamPart : StreamPart) :
    (getMessageTimestampInStream order tables.buckets tables.data streamPart = 0 ∧
      ∀ bucket, order.FirstBucket tables.buckets streamPart bucket → ∀ key, tables.Stores key →
        key.streamPart = streamPart → key.bucketId ≠ bucket.columns.id) ∨
    ∃ bucket first, order.FirstBucket tables.buckets streamPart bucket ∧ tables.Stores first ∧
      first.streamPart = streamPart ∧ first.bucketId = bucket.columns.id ∧
      first.timestamp = getMessageTimestampInStream order tables.buckets tables.data streamPart ∧
      ∀ key, tables.Stores key → key.streamPart = streamPart →
        key.bucketId = bucket.columns.id → order.Precedes first.timestamp key.timestamp := by
  unfold getMessageTimestampInStream
  cases hbucket : order.bucket? tables.buckets streamPart with
  | none =>
    refine Or.inl ⟨rfl, fun bucket hfirst ↦ ?_⟩
    rw [SortOrder.bucket?_eq_some_iff.mpr hfirst] at hbucket
    cases hbucket
  | some bucket =>
    have hfirst := SortOrder.bucket?_eq_some_iff.mp hbucket
    dsimp only
    cases htime : order.timestamp? ((tables.data.select streamPart [bucket.columns.id]
        fun _ ↦ true).map fun row ↦ row.1.timestamp) with
    | none =>
      refine Or.inl ⟨rfl, fun other hother key hkey hpart hid ↦ ?_⟩
      rw [SortOrder.firstBucket_unique hother hfirst] at hid
      have hmem := mem_select_bucket.mpr ⟨key, hkey, hpart, hid, rfl⟩
      rw [SortOrder.timestamp?_eq_none_iff.mp htime] at hmem
      cases hmem
    | some timestamp =>
      obtain ⟨hmem, hprecedes⟩ := SortOrder.timestamp?_eq_some_iff.mp htime
      obtain ⟨first, hstores, hpart, hid, rfl⟩ := mem_select_bucket.mp hmem
      exact Or.inr ⟨bucket, first, hfirst, hstores, hpart, hid, rfl, fun key hkey hkeyPart hkeyId ↦
        hprecedes _ (mem_select_bucket.mpr ⟨key, hkey, hkeyPart, hkeyId, rfl⟩)⟩

/-- What is reported for an end is right if and only if the first bucket in the order holds a first
message.
Assumes: messages are dated after the epoch. -/
theorem isEnd_iff (hpositive : ∀ key, tables.Stores key → 0 < key.timestamp) :
    IsEnd order tables streamPart
        (getMessageTimestampInStream order tables.buckets tables.data streamPart) ↔
      ∀ key, tables.Stores key → key.streamPart = streamPart →
        FirstBucketHolds order tables.buckets tables.Stores key := by
  rcases getMessageTimestamp_cases order tables streamPart with
    ⟨hzero, hempty⟩ | ⟨bucket, first, hbucket, hstores, hpart, hid, hvalue, hfirst⟩
  · rw [hzero]
    constructor
    · intro hend key hkey hkeyPart
      exact absurd hkeyPart (hend.eq_zero_iff.mp rfl key hkey)
    · intro hholds
      have hnone : ∀ key, tables.Stores key → key.streamPart ≠ streamPart := by
        rintro key hkey rfl
        obtain ⟨bucket, other, hbucket, hother, hotherPart, hotherId, -⟩ := hholds key hkey rfl
        exact hempty bucket hbucket other hother hotherPart hotherId
      exact ⟨iff_of_true rfl hnone, fun key hkey hkeyPart ↦ absurd hkeyPart (hnone key hkey),
        fun key hkey hkeyPart ↦ absurd hkeyPart (hnone key hkey)⟩
  · rw [← hvalue]
    constructor
    · rintro hend key hkey rfl
      exact ⟨bucket, first, hbucket, hstores, hpart, hid, hend.precedes key hkey rfl⟩
    · intro hholds
      refine ⟨iff_of_false (hpositive first hstores).ne' fun hnone ↦ hnone first hstores hpart,
        fun _ _ _ ↦ ⟨first, hstores, hpart, rfl⟩, fun key hkey hkeyPart ↦ ?_⟩
      subst hkeyPart
      obtain ⟨found, other, hfound, hother, hotherPart, hotherId, hprecedes⟩ := hholds key hkey rfl
      rw [SortOrder.firstBucket_unique hfound hbucket] at hotherId
      exact (hfirst other hother hotherPart hotherId).trans hprecedes

/-! ### What a statement does to the ends -/

/-- The statement leaves a first message in the first bucket of every stream part. The row of a
bucket that comes first when it is written is that of a bucket which holds a first message already;
for every inserted message, and for every one that is not deleted, the bucket that comes first holds
one afterwards that comes no later. -/
def KeepsEnd (order : SortOrder) (tables : StoredTables) : Statement → Prop
  | .updateBucket key columns =>
    (∃ date found, tables.buckets.get? ⟨key.streamPart, date⟩ = some found ∧
      date ≠ key.dateCreate ∧ order.Precedes date key.dateCreate) ∨
    ∀ message, tables.Stores message → message.streamPart = key.streamPart →
      ∃ other, tables.Stores other ∧ other.streamPart = message.streamPart ∧
        other.bucketId = columns.id ∧ order.Precedes other.timestamp message.timestamp
  | .insert rows => ∀ row ∈ rows, FirstBucketHolds order tables.buckets
    (fun other ↦ tables.Stores other ∨ ∃ row ∈ rows, row.1 = other) row.1
  | .delete selected => ∀ message, tables.Stores message → selected message = false →
    FirstBucketHolds order tables.buckets
      (fun other ↦ tables.Stores other ∧ selected other = false) message
  | .deleteBucket key selected => ∀ message, tables.Stores message → selected message = false →
    FirstBucketHolds order (tables.buckets.delete key)
      (fun other ↦ tables.Stores other ∧ selected other = false) message

theorem FirstBucketHolds.mono {buckets : BucketTable} {held kept : DataKey → Prop} {key : DataKey}
    (hkept : ∀ other, held other → kept other) (hholds : FirstBucketHolds order buckets held key) :
    FirstBucketHolds order buckets kept key := by
  obtain ⟨bucket, other, hbucket, hother, hrest⟩ := hholds
  exact ⟨bucket, other, hbucket, hkept other hother, hrest⟩

theorem stores_insert {rows : List DataRow} {key : DataKey} :
    (tables.perform (.insert rows)).Stores key ↔
      tables.Stores key ∨ ∃ row ∈ rows, row.1 = key := by
  simp only [StoredTables.Stores, StoredTables.perform]
  obtain ⟨buckets, data⟩ := tables
  induction rows generalizing data with
  | nil => simp [Retention.insertRows]
  | cons first rows ih =>
    have hset : (∃ columns, (data.set first.1 first.2).get? key = some columns) ↔
        (∃ columns, data.get? key = some columns) ∨ first.1 = key := by
      simp only [OrderedMap.get?_set_eq_some_iff]
      by_cases heq : first.1 = key
      · simp [heq]
      · simp [heq, Ne.symm heq]
    rw [Retention.insertRows, List.foldl_cons]
    refine (ih (data.set first.1 first.2)).trans ?_
    rw [hset]
    simp [or_assoc]

theorem stores_filter {selected : DataKey → Bool} {key : DataKey} :
    (∃ columns, (tables.data.filter fun row ↦ !selected row.1).get? key = some columns) ↔
      tables.Stores key ∧ selected key = false := by
  simp only [OrderedMap.get?_filter, Option.filter_eq_some_iff, Bool.not_eq_true',
    StoredTables.Stores, exists_and_right]

/-- The first bucket after a row was written, when another bucket comes before it. -/
theorem firstBucket_set_of_precedes {buckets : BucketTable} {key : BucketKey}
    {columns : BucketColumns} {bucket : BucketRow} {date : ℤ} {found : BucketColumns}
    (hrow : buckets.get? ⟨key.streamPart, date⟩ = some found) (hne : date ≠ key.dateCreate)
    (hprecedes : order.Precedes date key.dateCreate)
    (hbucket : order.FirstBucket buckets key.streamPart bucket) :
    order.FirstBucket (buckets.set key columns) key.streamPart bucket := by
  have hfirst := (hbucket.2 date found hrow).trans hprecedes
  have hdate : bucket.dateCreate ≠ key.dateCreate := fun heq ↦
    hne (hprecedes.antisymm (heq ▸ hbucket.2 date found hrow))
  refine ⟨?_, fun other columns hother ↦ ?_⟩
  · rw [OrderedMap.get?_set_of_ne _ _ fun heq ↦ hdate (congrArg BucketKey.dateCreate heq)]
    exact hbucket.1
  · rcases OrderedMap.get?_set_eq_some_iff.mp hother with ⟨heq, -⟩ | ⟨-, hold⟩
    · rw [← heq] at hfirst
      exact hfirst
    · exact hbucket.2 other columns hold

/-- The first bucket of another stream part. -/
theorem firstBucket_set_of_ne {buckets : BucketTable} {key : BucketKey} {columns : BucketColumns}
    (hne : streamPart ≠ key.streamPart) {bucket : BucketRow} :
    order.FirstBucket (buckets.set key columns) streamPart bucket ↔
      order.FirstBucket buckets streamPart bucket := by
  have hget : ∀ date, (buckets.set key columns).get? ⟨streamPart, date⟩ =
      buckets.get? ⟨streamPart, date⟩ := fun date ↦
    OrderedMap.get?_set_of_ne _ _ fun heq ↦ hne (congrArg BucketKey.streamPart heq)
  simp only [SortOrder.FirstBucket, hget]

/-- A row that is written comes first, when no other bucket comes before it. -/
theorem firstBucket_set_self {buckets : BucketTable} {key : BucketKey} {columns : BucketColumns}
    (hnone : ∀ date found, buckets.get? ⟨key.streamPart, date⟩ = some found →
      date ≠ key.dateCreate → ¬ order.Precedes date key.dateCreate) :
    order.FirstBucket (buckets.set key columns) key.streamPart ⟨key.dateCreate, columns⟩ := by
  refine ⟨OrderedMap.get?_set_self _ _ _, fun date found hfound ↦ ?_⟩
  by_cases hdate : date = key.dateCreate
  · exact hdate ▸ .refl date
  · rcases OrderedMap.get?_set_eq_some_iff.mp hfound with ⟨heq, -⟩ | ⟨-, hold⟩
    · exact absurd (congrArg BucketKey.dateCreate heq) hdate
    · exact (SortOrder.precedes_total _ _).resolve_right (hnone date found hold hdate)

theorem holdsEnd_updateBucket_iff (hholds : HoldsEnd order tables) (key : BucketKey)
    (columns : BucketColumns) : HoldsEnd order (tables.perform (.updateBucket key columns)) ↔
      KeepsEnd order tables (.updateBucket key columns) := by
  by_cases hbefore : ∃ date found, tables.buckets.get? ⟨key.streamPart, date⟩ = some found ∧
      date ≠ key.dateCreate ∧ order.Precedes date key.dateCreate
  · obtain ⟨date, found, hrow, hne, hprecedes⟩ := hbefore
    refine iff_of_true (fun message hmessage ↦ ?_) (Or.inl ⟨date, found, hrow, hne, hprecedes⟩)
    obtain ⟨bucket, other, hbucket, hrest⟩ := hholds message hmessage
    refine ⟨bucket, other, ?_, hrest⟩
    by_cases hpart : message.streamPart = key.streamPart
    · rw [hpart] at hbucket ⊢
      exact firstBucket_set_of_precedes hrow hne hprecedes hbucket
    · exact (firstBucket_set_of_ne hpart).mpr hbucket
  · -- the row that is written comes first
    rw [KeepsEnd, or_iff_right hbefore]
    have hfirst : order.FirstBucket (tables.buckets.set key columns) key.streamPart
        ⟨key.dateCreate, columns⟩ := firstBucket_set_self fun date found hrow hne hprecedes ↦
      hbefore ⟨date, found, hrow, hne, hprecedes⟩
    constructor
    · intro hafter message hmessage hpart
      obtain ⟨bucket, other, hbucket, hother, hotherPart, hid, hprecedes⟩ := hafter message hmessage
      obtain rfl := SortOrder.firstBucket_unique (hpart ▸ hbucket) hfirst
      exact ⟨other, hother, hotherPart, hid, hprecedes⟩
    · intro hkeeps message hmessage
      by_cases hpart : message.streamPart = key.streamPart
      · obtain ⟨other, hrest⟩ := hkeeps message hmessage hpart
        exact ⟨⟨key.dateCreate, columns⟩, other, hpart ▸ hfirst, hrest⟩
      · obtain ⟨bucket, other, hbucket, hrest⟩ := hholds message hmessage
        exact ⟨bucket, other, (firstBucket_set_of_ne hpart).mpr hbucket, hrest⟩

/-- After a deletion, the first buckets have to hold first ones of the messages that are left. -/
theorem holdsEnd_of_stores_iff {after : StoredTables} {selected : DataKey → Bool}
    (hstores : ∀ key, after.Stores key ↔ tables.Stores key ∧ selected key = false) :
    HoldsEnd order after ↔ ∀ message, tables.Stores message → selected message = false →
      FirstBucketHolds order after.buckets
        (fun other ↦ tables.Stores other ∧ selected other = false) message := by
  have hsame : after.Stores = fun other ↦ tables.Stores other ∧ selected other = false :=
    funext fun key ↦ propext (hstores key)
  rw [HoldsEnd, hsame]
  exact ⟨fun hafter key hkey hkept ↦ hafter key ⟨hkey, hkept⟩,
    fun hkeeps key hkey ↦ hkeeps key hkey.1 hkey.2⟩

/-- From tables whose first buckets hold first messages, a statement leads to such tables if and
only if it keeps them. -/
theorem holdsEnd_perform_iff (hholds : HoldsEnd order tables) (statement : Statement) :
    HoldsEnd order (tables.perform statement) ↔ KeepsEnd order tables statement := by
  cases statement with
  | updateBucket key columns => exact holdsEnd_updateBucket_iff hholds key columns
  | insert rows =>
    have hstores : (tables.perform (.insert rows)).Stores =
        fun other ↦ tables.Stores other ∨ ∃ row ∈ rows, row.1 = other :=
      funext fun key ↦ propext stores_insert
    rw [HoldsEnd, hstores]
    constructor
    · exact fun hafter row hrow ↦ hafter row.1 (Or.inr ⟨row, hrow, rfl⟩)
    · rintro hkeeps key (hkey | ⟨row, hrow, rfl⟩)
      · exact (hholds key hkey).mono fun other hother ↦ Or.inl hother
      · exact hkeeps row hrow
  | delete selected => exact holdsEnd_of_stores_iff fun _ ↦ stores_filter
  | deleteBucket key selected => exact holdsEnd_of_stores_iff fun _ ↦ stores_filter

/-! ### Runs -/

/-- Messages that are inserted are dated after the epoch. -/
def DatedAfterEpoch : Statement → Prop
  | .insert rows => ∀ row ∈ rows, 0 < row.1.timestamp
  | _ => True

/-- The condition on the steps: the statement of the step keeps both ends, and no message dated zero
is inserted. -/
def KeepsEnds (state : Retention.State) (event : Event) : Prop :=
  ∀ statement ∈ statementOf state event,
    (∀ order, KeepsEnd order (tablesOf state) statement) ∧ DatedAfterEpoch statement

/-- The node right after its start, without messages. -/
def Start (state : Retention.State) : Prop :=
  Retention.Start state ∧ state.data = OrderedMap.empty

/-- Statements that insert messages dated after the epoch only keep all messages so. -/
theorem positive_perform {statement : Statement}
    (hpositive : ∀ key, tables.Stores key → 0 < key.timestamp)
    (hdated : DatedAfterEpoch statement) :
    ∀ key, (tables.perform statement).Stores key → 0 < key.timestamp := by
  intro key hkey
  cases statement with
  | updateBucket bucketKey columns => exact hpositive key hkey
  | insert rows =>
    rcases stores_insert.mp hkey with hold | ⟨row, hrow, rfl⟩
    · exact hpositive key hold
    · exact hdated row hrow
  | delete selected => exact hpositive key (stores_filter.mp hkey).1
  | deleteBucket bucketKey selected => exact hpositive key (stores_filter.mp hkey).1

/-- The metadata report the ends of every stream part. -/
def ReportsEnds (state : Retention.State) : Prop :=
  ∀ streamPart, IsEnd .asc (tablesOf state) streamPart
      (getFirstMessageTimestampInStream state.manager.table state.data streamPart) ∧
    IsEnd .desc (tablesOf state) streamPart
      (getLastMessageTimestampInStream state.manager.table state.data streamPart)

/-- The ends are reported if and only if the first and the last buckets hold them.
Assumes: messages are dated after the epoch. -/
theorem reportsEnds_iff (hpositive : ∀ key, (tablesOf state).Stores key → 0 < key.timestamp) :
    ReportsEnds state ↔ ∀ order, HoldsEnd order (tablesOf state) := by
  constructor
  · intro hreports order key hkey
    cases order with
    | asc => exact (isEnd_iff hpositive).mp (hreports key.streamPart).1 key hkey rfl
    | desc => exact (isEnd_iff hpositive).mp (hreports key.streamPart).2 key hkey rfl
  · exact fun hholds streamPart ↦ ⟨(isEnd_iff hpositive).mpr fun key hkey _ ↦ hholds .asc key hkey,
      (isEnd_iff hpositive).mpr fun key hkey _ ↦ hholds .desc key hkey⟩

/-- A step from a state whose first and last buckets hold the ends leads to such a state if and only
if its statement keeps them.
Assumes: messages that it inserts are dated after the epoch. -/
theorem holdsEnds_step_iff {event : Event} (hholds : ∀ order, HoldsEnd order (tablesOf state))
    (hstep : step package options config state event = some after)
    (hdated : ∀ statement ∈ statementOf state event, DatedAfterEpoch statement) :
    (∀ order, HoldsEnd order (tablesOf after)) ↔ KeepsEnds state event := by
  have htables := tables_step hstep
  unfold KeepsEnds
  cases hstatement : statementOf state event with
  | none =>
    rw [hstatement] at htables
    exact iff_of_true (htables ▸ hholds) nofun
  | some statement =>
    rw [hstatement] at htables
    rw [htables]
    constructor
    · rintro hafter _ ⟨⟩
      exact ⟨fun order ↦ (holdsEnd_perform_iff (hholds order) statement).mp (hafter order),
        hdated statement hstatement⟩
    · exact fun hkeeps order ↦
        (holdsEnd_perform_iff (hholds order) statement).mpr ((hkeeps statement rfl).1 order)

theorem positive_step {event : Event}
    (hpositive : ∀ key, (tablesOf state).Stores key → 0 < key.timestamp)
    (hstep : step package options config state event = some after)
    (hdated : ∀ statement ∈ statementOf state event, DatedAfterEpoch statement) :
    ∀ key, (tablesOf after).Stores key → 0 < key.timestamp := by
  have htables := tables_step hstep
  cases hstatement : statementOf state event with
  | none =>
    rw [hstatement] at htables
    exact htables ▸ hpositive
  | some statement =>
    rw [hstatement] at htables
    rw [htables]
    exact positive_perform hpositive (hdated statement hstatement)

/-- A node on empty tables. -/
def emptyNode : Retention.State where
  manager := BucketDates.emptyManager
  data := OrderedMap.empty
  buffered := []
  clock := 0
  phase := .idle
  removed := []

theorem start_emptyNode : Start emptyNode := by
  refine ⟨⟨rfl, rfl, rfl, rfl, fun hcolumns ↦ ?_, nofun, rfl, rfl, rfl⟩, rfl⟩
  cases hcolumns

/-- Buckets that are almost full with their first message. -/
def oneRecordEach : BucketManagerOptions :=
  { defaultBucketManagerOptions with
    maxBucketRecords := 1
    maxBucketRecords_pos := Nat.one_pos }

/-- A message waits for a bucket, which is created and written to the table, and goes to it. -/
def firstMessage (bucketId : BucketId) (timestamp : ℤ) : List Event :=
  [.store (Retention.messageAt timestamp) 0, .timer .beginCheck, .timer .takeUp,
    .timer (.evaluate 0), .timer (.resume bucketId 0), .timer .takeUp,
    .store (Retention.messageAt timestamp) 0, .timer .beginStore, .timer (.applyUpdate 0),
    .timer (.settleUpdate 0 true), .timer (.endStore 0)].map .node

/-- The message is inserted. -/
def insertMessage (bucketId : BucketId) (timestamp : ℤ) : Event :=
  .node (.insert [(Retention.messageAt timestamp).row bucketId])

/-- A check of the condition on a step, for updates and inserts of one bucket. -/
def checkKeepsEnds (state : Retention.State) (event : Event) : Bool :=
  match statementOf state event with
  | none => true
  | some (.updateBucket _ _) => state.data.entries.isEmpty
  | some (.insert rows) => rows.all fun row ↦ 0 < row.1.timestamp &&
    !state.manager.table.entries.isEmpty && state.manager.table.entries.all fun bucket ↦
      bucket.1.streamPart = row.1.streamPart ∧ bucket.2.id = row.1.bucketId
  | _ => false

theorem keepsEnds_of_checkKeepsEnds (state : Retention.State) (event : Event)
    (hcheck : checkKeepsEnds state event = true) : KeepsEnds state event := by
  intro statement hstatement
  simp only [checkKeepsEnds, Option.mem_def.mp hstatement] at hcheck
  cases statement with
  | updateBucket key columns =>
    refine ⟨fun order ↦ Or.inr fun message ⟨found, hrow⟩ ↦ ?_, trivial⟩
    have hmem := OrderedMap.get?_eq_some_iff.mp hrow
    simp only [tablesOf, List.isEmpty_iff.mp hcheck] at hmem
    cases hmem
  | insert rows =>
    simp only [List.all_eq_true, Bool.and_eq_true, decide_eq_true_eq, Bool.not_eq_true',
      List.isEmpty_eq_false_iff] at hcheck
    refine ⟨fun order row hrow ↦ ?_, fun row hrow ↦ (hcheck row hrow).1.1⟩
    obtain ⟨⟨-, hlisted⟩, hsame⟩ := hcheck row hrow
    obtain ⟨entry, hentry⟩ := List.exists_mem_of_ne_nil _ hlisted
    have hget : state.manager.table.get? ⟨row.1.streamPart, entry.1.dateCreate⟩ = some entry.2 := by
      rw [← (hsame entry hentry).1]
      exact OrderedMap.get?_eq_some_iff.mpr hentry
    obtain ⟨bucket, hbucket⟩ := SortOrder.exists_bucket?_of_get? order hget
    have hfirst := SortOrder.firstBucket_of_bucket? hbucket
    have hid := (hsame _ (OrderedMap.get?_eq_some_iff.mp hfirst.1)).2
    exact ⟨bucket, row.1, hfirst, Or.inr ⟨row, hrow, rfl⟩, rfl, hid.symm, .refl _⟩
  | delete selected => cases hcheck
  | deleteBucket key selected => cases hcheck

end PomboStorageNode.Storage.StreamEnds
