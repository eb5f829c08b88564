import PomboStorageNode.Storage.RowSweep

/-!
# The bucket retention

The first phase of a retention run, `DeleteExpiredCmd`, deletes whole buckets. It asks for the
buckets that start no later than the limit of their stream, cuts that list to `bucketLimit`, and
only then reads the newest message of each bucket that is left. A bucket that still receives
messages is in the list as long as it has a recent one, and the newest buckets of a stream come
first.

So a run deletes nothing, while there is an expired bucket, when the part of the list that is left
after cutting has none: `deletesExpired_iff` is the exact condition, and `liveFirst` are tables
where that happens.
-/

set_option autoImplicit false

namespace PomboStorageNode.Storage.BucketRetention

open Library Tables StreamMetadata StreamEnds
open Retention (StreamPartInfo BucketInfo timestampBefore isExpired inBucket)

/-! ### The command -/

/-- The options of the command that it uses after its construction; `dryRun` is true by default. -/
structure Options where
  bucketLimit : ℕ
  dryRun : Bool

/-- The constructor. -/
def Options.new (bucketLimit : Option ℕ) (dryRun : Option Bool) : Options :=
  ⟨bucketLimit.getD 10000000, dryRun.getD true⟩

/-- The order in which tasks that run beside each other are done with. -/
abbrev Arrival (Task : Type) := {order : List Task → List Task // ∀ tasks, (order tasks).Perm tasks}

/-- What a run meets: the lookups of the storage days, of which `none` is one that fails and
`some none` a stream without a number of its own; the clock when the limit for the dates of a stream
part and that for the messages of a bucket are computed; and the order in which the queries are
answered, all of which succeed. -/
structure Surroundings where
  getStorageDayCount : StreamPart → Option (Option ℤ)
  now : StreamPart → ℤ
  later : BucketKey → ℤ
  selects : Arrival StreamPartInfo
  checks : Arrival BucketInfo
  batches : Arrival BucketInfo

/-- The storage days of a stream part, if the lookup succeeds. -/
def Surroundings.storageDaysOf (surroundings : Surroundings) (streamPart : StreamPart) :
    Option ℤ :=
  (surroundings.getStorageDayCount streamPart).map fun count ↦ count.getD 365

/-- `fetchStreamsInfo`, less the failed lookups, which the callers filter out. -/
def fetchStreamsInfo (surroundings : Surroundings) (streams : List StreamPart) :
    List StreamPartInfo :=
  streams.filterMap fun streamPart ↦
    (surroundings.storageDaysOf streamPart).map fun storageDays ↦ ⟨streamPart, storageDays⟩

/-- The rows of the bucket table that the query for a stream part returns. -/
def expiredBefore (surroundings : Surroundings) (buckets : BucketTable) (info : StreamPartInfo) :
    List BucketInfo :=
  (Retention.potentiallyExpired buckets info
    (timestampBefore (surroundings.now info.streamPart) info.storageDays)).take defaultFetchSize

/-- `getPotentiallyExpiredBuckets`. -/
def getPotentiallyExpiredBuckets (surroundings : Surroundings) (buckets : BucketTable)
    (streamsInfo : List StreamPartInfo) : List BucketInfo :=
  (surroundings.selects.1 streamsInfo).flatMap (expiredBefore surroundings buckets)

/-- The key of the row of a bucket. -/
def keyOf (bucket : BucketInfo) : BucketKey := ⟨bucket.streamPart, bucket.dateCreate⟩

/-- The limit for the messages of a bucket in `filterExpiredBuckets`. -/
def limitOf (surroundings : Surroundings) (bucket : BucketInfo) : ℤ :=
  timestampBefore (surroundings.later (keyOf bucket)) bucket.storageDays

/-- `filterExpiredBuckets`. -/
def filterExpiredBuckets (surroundings : Surroundings) (data : StreamData)
    (potentialBuckets : List BucketInfo) : List BucketInfo :=
  (surroundings.checks.1 potentialBuckets).filter fun bucket ↦
    isExpired data bucket (limitOf surroundings bucket)

/-- `deleteExpired`. -/
def deleteExpired (surroundings : Surroundings) (tables : StoredTables)
    (expiredBuckets : List BucketInfo) : StoredTables :=
  (surroundings.batches.1 expiredBuckets).foldl
    (fun tables bucket ↦ tables.perform (deleteBucketStatement bucket)) tables

/-- The buckets that the queries on the bucket table return. -/
def potentialBuckets (surroundings : Surroundings) (buckets : BucketTable) : List BucketInfo :=
  getPotentiallyExpiredBuckets surroundings buckets
    (fetchStreamsInfo surroundings (OrphanSweep.listStreamParts buckets))

/-- `run`: the tables after it, when nothing else writes. -/
def run (options : Options) (surroundings : Surroundings) (tables : StoredTables) :
    StoredTables :=
  let cutPotentialBuckets :=
    (potentialBuckets surroundings tables.buckets).take options.bucketLimit
  let expiredBuckets := filterExpiredBuckets surroundings tables.data cutPotentialBuckets
  if options.dryRun then tables else deleteExpired surroundings tables expiredBuckets

/-- `bucketRetention`. -/
def bucketRetention (config : Retention.RetentionConfig) (surroundings : Surroundings)
    (tables : StoredTables) : StoredTables :=
  run (.new (some config.bucketDeleteLimit) (some false)) surroundings tables

/-! ### What a run should do -/

/-- A bucket that the command is for: its row starts no later than the limit of its stream, and it
has no message at the limit or after it. -/
def Expired (surroundings : Surroundings) (tables : StoredTables) (key : BucketKey) : Prop :=
  ∃ columns storageDays, tables.buckets.get? key = some columns ∧
    surroundings.storageDaysOf key.streamPart = some storageDays ∧
    key.dateCreate ≤ timestampBefore (surroundings.now key.streamPart) storageDays ∧
    ∀ row ∈ tables.data.entries, inBucket key.streamPart columns.id row.1 = true →
      row.1.timestamp < timestampBefore (surroundings.later key) storageDays

/-- What the tables should be after a run: it deletes buckets up to its limit, all of them expired,
and some if there are any to be deleted; and it deletes no message that is recent. -/
structure DeletesExpired (config : Retention.RetentionConfig) (surroundings : Surroundings)
    (tables after : StoredTables) : Prop where
  limit : (tables.buckets.entries.filter fun row ↦ !after.buckets.has row.1).length ≤
    config.bucketDeleteLimit
  expired : ∀ key, tables.buckets.has key = true → after.buckets.has key = false →
    Expired surroundings tables key
  messages : ∀ key, tables.Stores key → ¬ after.Stores key →
    ∃ bucket columns, Expired surroundings tables bucket ∧
      tables.buckets.get? bucket = some columns ∧
      inBucket bucket.streamPart columns.id key = true
  progress : (∃ key, Expired surroundings tables key) →
    ∃ key, Expired surroundings tables key ∧ after.buckets.has key = false

/-- An expired bucket is among those that are left after cutting. -/
def ReachesExpired (config : Retention.RetentionConfig) (surroundings : Surroundings)
    (tables : StoredTables) : Prop :=
  ∃ before first after, potentialBuckets surroundings tables.buckets = before ++ first :: after ∧
    before.length < config.bucketDeleteLimit ∧ Expired surroundings tables (keyOf first)

variable {config : Retention.RetentionConfig} {surroundings : Surroundings} {tables : StoredTables}
  {buckets : BucketTable} {bucket : BucketInfo}

/-! ### The queries -/

theorem mem_potentiallyExpired {info : StreamPartInfo} {before : ℤ} :
    bucket ∈ Retention.potentiallyExpired buckets info before ↔
      ∃ columns, buckets.get? (keyOf bucket) = some columns ∧ bucket.dateCreate ≤ before ∧
        bucket.bucketId = columns.id ∧ bucket.streamPart = info.streamPart ∧
        bucket.storageDays = info.storageDays := by
  unfold Retention.potentiallyExpired keyOf
  simp only [List.mem_map, BucketTable.mem_select, decide_eq_true_eq]
  constructor
  · rintro ⟨row, ⟨hrow, hdate⟩, rfl⟩
    exact ⟨row.columns, hrow, hdate, rfl, rfl, rfl⟩
  · rintro ⟨columns, hrow, hdate, hid, hpart, hdays⟩
    obtain ⟨bucketId, dateCreate, streamPart, storageDays⟩ := bucket
    obtain rfl := hpart
    obtain rfl := hdays
    obtain rfl := hid
    exact ⟨⟨dateCreate, columns⟩, ⟨hrow, hdate⟩, rfl⟩

theorem mem_fetchStreamsInfo {streams : List StreamPart} {info : StreamPartInfo} :
    info ∈ fetchStreamsInfo surroundings streams ↔ info.streamPart ∈ streams ∧
      surroundings.storageDaysOf info.streamPart = some info.storageDays := by
  unfold fetchStreamsInfo
  rw [List.mem_filterMap]
  constructor
  · rintro ⟨streamPart, hmem, hinfo⟩
    obtain ⟨storageDays, hdays, rfl⟩ := Option.map_eq_some_iff.mp hinfo
    exact ⟨hmem, hdays⟩
  · rintro ⟨hmem, hdays⟩
    exact ⟨info.streamPart, hmem, by rw [hdays]; rfl⟩

/-- A bucket that the queries return has the row that they found, dated before the limit. -/
theorem of_mem_potentialBuckets (hmem : bucket ∈ potentialBuckets surroundings buckets) :
    surroundings.storageDaysOf bucket.streamPart = some bucket.storageDays ∧
      bucket.dateCreate ≤
        timestampBefore (surroundings.now bucket.streamPart) bucket.storageDays ∧
      ∃ columns, buckets.get? (keyOf bucket) = some columns ∧ bucket.bucketId = columns.id := by
  obtain ⟨info, hinfo, hbucket⟩ := List.mem_flatMap.mp hmem
  obtain ⟨-, hdays⟩ := mem_fetchStreamsInfo.mp ((surroundings.selects.2 _).mem_iff.mp hinfo)
  obtain ⟨columns, hrow, hdate, hid, hpart, hstorage⟩ :=
    mem_potentiallyExpired.mp (List.mem_of_mem_take hbucket)
  rw [← hpart, ← hstorage] at hdate hdays
  exact ⟨hdays, hdate, columns, hrow, hid⟩

/-- `filterExpiredBuckets` lets a bucket through if and only if its messages are all before the
limit. -/
theorem isExpired_iff {data : StreamData} {before : ℤ} :
    isExpired data bucket before = true ↔ ∀ row ∈ data.entries,
      inBucket bucket.streamPart bucket.bucketId row.1 = true → row.1.timestamp < before := by
  constructor
  · exact fun hexpired row hrow ↦ Retention.timestamp_lt_of_isExpired hexpired hrow
  · intro hrows
    unfold isExpired
    cases hmax : Retention.maxTimestamp data bucket with
    | none => rfl
    | some newest =>
      obtain ⟨row, hrow, rfl⟩ := List.mem_map.mp (List.max?_eq_some_iff.mp hmax).1
      obtain ⟨hentry, hpart, hid, -⟩ := StreamData.mem_select.mp hrow
      refine decide_eq_true (hrows row hentry (decide_eq_true ⟨hpart, ?_⟩))
      exact List.mem_singleton.mp hid

/-- What the command takes for expired is. -/
theorem isExpired_iff_expired (hmem : bucket ∈ potentialBuckets surroundings tables.buckets) :
    isExpired tables.data bucket (limitOf surroundings bucket) = true ↔
      Expired surroundings tables (keyOf bucket) := by
  obtain ⟨hdays, hdate, columns, hrow, hid⟩ := of_mem_potentialBuckets hmem
  rw [isExpired_iff, hid]
  constructor
  · exact fun hrows ↦ ⟨columns, bucket.storageDays, hrow, hdays, hdate, hrows⟩
  · rintro ⟨other, storageDays, hother, hstorage, -, hrows⟩
    obtain rfl := Option.some.inj (hrow.symm.trans hother)
    obtain rfl := Option.some.inj (hdays.symm.trans hstorage)
    exact hrows

/-! ### What a run deletes -/

/-- The buckets that a run deletes. -/
def deletedBuckets (config : Retention.RetentionConfig) (surroundings : Surroundings)
    (tables : StoredTables) : List BucketInfo :=
  filterExpiredBuckets surroundings tables.data
    ((potentialBuckets surroundings tables.buckets).take config.bucketDeleteLimit)

theorem bucketRetention_eq (config : Retention.RetentionConfig) (surroundings : Surroundings)
    (tables : StoredTables) : bucketRetention config surroundings tables =
      deleteExpired surroundings tables (deletedBuckets config surroundings tables) := rfl

theorem mem_deletedBuckets : bucket ∈ deletedBuckets config surroundings tables ↔
    bucket ∈ (potentialBuckets surroundings tables.buckets).take config.bucketDeleteLimit ∧
      Expired surroundings tables (keyOf bucket) := by
  unfold deletedBuckets filterExpiredBuckets
  rw [List.mem_filter, (surroundings.checks.2 _).mem_iff]
  constructor
  · rintro ⟨hmem, hexpired⟩
    exact ⟨hmem, (isExpired_iff_expired (List.mem_of_mem_take hmem)).mp hexpired⟩
  · rintro ⟨hmem, hexpired⟩
    exact ⟨hmem, (isExpired_iff_expired (List.mem_of_mem_take hmem)).mpr hexpired⟩

theorem length_deletedBuckets_le (config : Retention.RetentionConfig)
    (surroundings : Surroundings) (tables : StoredTables) :
    (deletedBuckets config surroundings tables).length ≤ config.bucketDeleteLimit := by
  unfold deletedBuckets filterExpiredBuckets
  refine (List.length_filter_le _ _).trans ?_
  rw [(surroundings.checks.2 _).length_eq]
  exact List.length_take_le _ _

/-- The batches delete the rows of their buckets. -/
theorem has_buckets_foldl (expiredBuckets : List BucketInfo) (tables : StoredTables)
    (key : BucketKey) :
    (expiredBuckets.foldl (fun tables bucket ↦ tables.perform (deleteBucketStatement bucket))
      tables).buckets.has key = true ↔
        tables.buckets.has key = true ∧ ∀ bucket ∈ expiredBuckets, keyOf bucket ≠ key := by
  induction expiredBuckets generalizing tables with
  | nil => simp
  | cons bucket expiredBuckets ih =>
    have hhas : (tables.perform (deleteBucketStatement bucket)).buckets.has key = true ↔
        tables.buckets.has key = true ∧ keyOf bucket ≠ key := by
      show (tables.buckets.delete (keyOf bucket)).has key = true ↔ _
      rw [OrderedMap.has_delete]
      tauto
    rw [List.foldl_cons, ih, hhas, List.forall_mem_cons, and_assoc]

/-- The batches delete the messages in their buckets. -/
theorem stores_foldl (expiredBuckets : List BucketInfo) (tables : StoredTables) (key : DataKey) :
    (expiredBuckets.foldl (fun tables bucket ↦ tables.perform (deleteBucketStatement bucket))
      tables).Stores key ↔ tables.Stores key ∧
        ∀ bucket ∈ expiredBuckets, inBucket bucket.streamPart bucket.bucketId key = false := by
  induction expiredBuckets generalizing tables with
  | nil => simp
  | cons bucket expiredBuckets ih =>
    have hstores : (tables.perform (deleteBucketStatement bucket)).Stores key ↔
        tables.Stores key ∧ inBucket bucket.streamPart bucket.bucketId key = false :=
      stores_filter
    rw [List.foldl_cons, ih, hstores, List.forall_mem_cons, and_assoc]

theorem has_bucketRetention {key : BucketKey} :
    (bucketRetention config surroundings tables).buckets.has key = true ↔
      tables.buckets.has key = true ∧
        ∀ bucket ∈ deletedBuckets config surroundings tables, keyOf bucket ≠ key := by
  rw [bucketRetention_eq, deleteExpired, has_buckets_foldl]
  simp only [(surroundings.batches.2 _).mem_iff]

theorem stores_bucketRetention {key : DataKey} :
    (bucketRetention config surroundings tables).Stores key ↔ tables.Stores key ∧
      ∀ bucket ∈ deletedBuckets config surroundings tables,
        inBucket bucket.streamPart bucket.bucketId key = false := by
  rw [bucketRetention_eq, deleteExpired, stores_foldl]
  simp only [(surroundings.batches.2 _).mem_iff]

/-- A row that is gone is that of a bucket that the run deletes. -/
theorem exists_deleted_of_not_has {key : BucketKey} (hhas : tables.buckets.has key = true)
    (hgone : (bucketRetention config surroundings tables).buckets.has key = false) :
    ∃ bucket ∈ deletedBuckets config surroundings tables, keyOf bucket = key := by
  by_contra hkept
  push Not at hkept
  rw [has_bucketRetention.mpr ⟨hhas, hkept⟩] at hgone
  cases hgone

theorem length_deleted_le (config : Retention.RetentionConfig) (surroundings : Surroundings)
    (tables : StoredTables) :
    (tables.buckets.entries.filter fun row ↦
      !(bucketRetention config surroundings tables).buckets.has row.1).length ≤
        config.bucketDeleteLimit := by
  let gone := tables.buckets.entries.filter fun row ↦
    !(bucketRetention config surroundings tables).buckets.has row.1
  have hnodup : (gone.map Prod.fst).Nodup :=
    tables.buckets.nodup_keys.sublist (List.filter_sublist.map Prod.fst)
  have hsubset : gone.map Prod.fst ⊆ (deletedBuckets config surroundings tables).map keyOf := by
    intro key hkey
    obtain ⟨row, hrow, rfl⟩ := List.mem_map.mp hkey
    obtain ⟨hentry, hgone⟩ := List.mem_filter.mp hrow
    have hhas : tables.buckets.has row.1 = true :=
      OrderedMap.has_iff_mem_keys.mpr (List.mem_map_of_mem hentry)
    obtain ⟨bucket, hbucket, hkeyOf⟩ :=
      exists_deleted_of_not_has hhas (Bool.not_eq_true' _ ▸ hgone)
    exact List.mem_map.mpr ⟨bucket, hbucket, hkeyOf⟩
  calc gone.length = (gone.map Prod.fst).length := (List.length_map _).symm
    _ ≤ ((deletedBuckets config surroundings tables).map keyOf).length :=
      hnodup.length_le_of_subset hsubset
    _ = (deletedBuckets config surroundings tables).length := List.length_map _
    _ ≤ config.bucketDeleteLimit := length_deletedBuckets_le config surroundings tables

/-- A run deletes an expired bucket if and only if one is left after cutting. -/
theorem deletes_iff : (∃ key, Expired surroundings tables key ∧
      (bucketRetention config surroundings tables).buckets.has key = false) ↔
    ReachesExpired config surroundings tables := by
  constructor
  · rintro ⟨key, hexpired, hgone⟩
    obtain ⟨columns, -, hrow, -⟩ := hexpired
    obtain ⟨bucket, hbucket, -⟩ :=
      exists_deleted_of_not_has (by rw [OrderedMap.has, hrow]; rfl) hgone
    obtain ⟨hmem, hexpired⟩ := mem_deletedBuckets.mp hbucket
    obtain ⟨index, hindex, rfl⟩ := List.mem_take_iff_getElem.mp hmem
    refine ⟨_, _, _, (List.take_append_drop index _).symm.trans
      (congrArg _ (List.drop_eq_getElem_cons (by omega))), ?_, hexpired⟩
    rw [List.length_take]
    omega
  · rintro ⟨before, first, after, hlist, hlt, hexpired⟩
    refine ⟨keyOf first, hexpired, ?_⟩
    have hdeleted : first ∈ deletedBuckets config surroundings tables := by
      refine mem_deletedBuckets.mpr ⟨?_, hexpired⟩
      rw [hlist, List.take_append, List.mem_append]
      right
      rw [show config.bucketDeleteLimit - before.length =
        config.bucketDeleteLimit - before.length - 1 + 1 by omega, List.take_succ_cons]
      exact List.mem_cons_self
    rw [← Bool.not_eq_true, has_bucketRetention]
    exact fun hkept ↦ hkept.2 first hdeleted rfl

theorem deletesExpired_of_reaches (hreaches : (∃ key, Expired surroundings tables key) →
      ReachesExpired config surroundings tables) :
    DeletesExpired config surroundings tables (bucketRetention config surroundings tables) := by
  refine ⟨length_deleted_le config surroundings tables, ?_, ?_,
    fun hexpired ↦ deletes_iff.mpr (hreaches hexpired)⟩
  · intro key hhas hgone
    obtain ⟨bucket, hbucket, rfl⟩ := exists_deleted_of_not_has hhas hgone
    exact (mem_deletedBuckets.mp hbucket).2
  · intro key hstores hgone
    rw [stores_bucketRetention, not_and] at hgone
    push Not at hgone
    obtain ⟨bucket, hbucket, hin⟩ := hgone hstores
    obtain ⟨hmem, hexpired⟩ := mem_deletedBuckets.mp hbucket
    obtain ⟨-, -, columns, hrow, hid⟩ := of_mem_potentialBuckets (List.mem_of_mem_take hmem)
    refine ⟨keyOf bucket, columns, hexpired, hrow, ?_⟩
    rw [← hid]
    exact Bool.not_eq_false _ ▸ hin

/-- A run is as it should be if and only if no bucket is expired or an expired one is among the
first `bucketDeleteLimit` of those that the queries return. -/
theorem deletesExpired_iff (config : Retention.RetentionConfig) (surroundings : Surroundings)
    (tables : StoredTables) :
    DeletesExpired config surroundings tables (bucketRetention config surroundings tables) ↔
      ((∃ key, Expired surroundings tables key) →
        ReachesExpired config surroundings tables) := by
  constructor
  · exact fun hdeletes hexpired ↦ deletes_iff.mp (hdeletes.progress hexpired)
  · exact deletesExpired_of_reaches

/-! ### A live bucket comes first -/

/-- The stream part of the buckets. -/
def chatPart : StreamPart := ⟨"/chat", 0, by decide⟩

/-- A message in a bucket. -/
def chatRow (bucketId : BucketId) (timestamp : ℤ) : DataRow :=
  (⟨chatPart, bucketId, timestamp, ⟨0, zero_sequenceNumber⟩, "publisher", "chain"⟩, ⟨none, none⟩)

/-- A bucket with an old message, and a newer one that still received a message on the second day.
-/
def liveFirst : StoredTables where
  buckets := (OrderedMap.empty.set ⟨chatPart, 0⟩ ⟨"old", 1, 0⟩).set ⟨chatPart, 10⟩ ⟨"live", 1, 0⟩
  data := Retention.insertRows OrderedMap.empty
    [chatRow "old" 1, chatRow "live" (2 * Retention.dayMs)]

/-- A run at the end of the eighth day, when messages are kept for seven days. -/
def eighthDay : Surroundings where
  getStorageDayCount _ := some (some 7)
  now _ := 8 * Retention.dayMs
  later _ := 8 * Retention.dayMs
  selects := ⟨id, fun _ ↦ .refl _⟩
  checks := ⟨id, fun _ ↦ .refl _⟩
  batches := ⟨id, fun _ ↦ .refl _⟩

/-- A run may delete one bucket. -/
def oneBucket : Retention.RetentionConfig := ⟨1, 200000⟩

theorem keys_potentialBuckets_liveFirst : (potentialBuckets eighthDay liveFirst.buckets).map keyOf =
    [⟨chatPart, 10⟩, ⟨chatPart, 0⟩] := by
  decide

theorem expired_old : Expired eighthDay liveFirst ⟨chatPart, 0⟩ := by
  have hold : liveFirst.data.entries.all (fun row ↦ !inBucket chatPart "old" row.1 ||
      row.1.timestamp < timestampBefore (8 * Retention.dayMs) 7) = true := by decide
  refine ⟨⟨"old", 1, 0⟩, 7, by decide, rfl, by decide, ?_⟩
  intro row hrow hin
  have hrecent := List.all_eq_true.mp hold row hrow
  rw [hin, Bool.not_true, Bool.false_or, decide_eq_true_eq] at hrecent
  exact hrecent

theorem not_expired_live : ¬ Expired eighthDay liveFirst ⟨chatPart, 10⟩ := by
  rintro ⟨columns, storageDays, hrow, hdays, -, hrows⟩
  obtain rfl := Option.some.inj (hrow.symm.trans (by decide : _ = some ⟨"live", 1, 0⟩))
  obtain rfl := Option.some.inj hdays
  have hlt := hrows (chatRow "live" (2 * Retention.dayMs)) (by decide) (by decide)
  exact absurd hlt (by decide)

/-- The run reads the newest message of the live bucket only, and deletes nothing. -/
theorem liveFirst_stuck : 1 ≤ oneBucket.bucketDeleteLimit ∧
    (∃ key, Expired eighthDay liveFirst key) ∧
    ¬ DeletesExpired oneBucket eighthDay liveFirst
      (bucketRetention oneBucket eighthDay liveFirst) := by
  refine ⟨le_refl 1, ⟨_, expired_old⟩, ?_⟩
  intro hdeletes
  obtain ⟨before, first, after, hlist, hlt, hexpired⟩ :=
    deletes_iff.mp (hdeletes.progress ⟨_, expired_old⟩)
  obtain rfl := List.length_eq_zero_iff.mp (Nat.lt_one_iff.mp hlt)
  have hkeys := keys_potentialBuckets_liveFirst
  rw [hlist, List.nil_append, List.map_cons] at hkeys
  rw [(List.cons.inj hkeys).1] at hexpired
  exact not_expired_live hexpired

end PomboStorageNode.Storage.BucketRetention
