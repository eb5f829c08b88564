import PomboStorageNode.Library.Binary64
import PomboStorageNode.Storage.StreamEnds
import Mathlib.Data.List.Dedup

/-!
# The orphan sweep

The last phase of a retention run deletes the buckets of streams that were deleted on-chain. It
looks up every stream that has buckets (`classify`), gives up when a lookup ended in another error
than "not found" or when suspiciously many streams look deleted, and deletes the buckets of the
deleted streams in which nothing was written during the grace period, up to a limit.

`orphanSweep_spec` says what a run without concurrent writes deletes. The configuration has numbers
of JavaScript, and both the fraction of deleted streams and its limit are rounded before they are
compared, as is the grace period in milliseconds; whole percents and whole days are not affected.
`sweeps_above_limit` is a configuration in which the fraction is above its limit by less than the
rounding, and the sweep goes on.
-/

set_option autoImplicit false

namespace PomboStorageNode.Storage.OrphanSweep

open Library Tables StreamMetadata StreamEnds

/-! ### Looking up a stream -/

/-- How a call of `getStream` ends: with the stream, or with an error and its `code`, if it has
one. -/
inductive Lookup
  | found
  | failed (code : Option String)
  deriving DecidableEq

/-- `StreamState`, without the stream. -/
inductive StreamState
  | existing
  | deleted
  | error (code : String)
  deriving DecidableEq

/-- The loop of `classify` over the attempts that are left, with the code of the last error. -/
def classifyAttempts : List Lookup → String → StreamState
  | [], code => .error code
  | .found :: _, _ => .existing
  | .failed code :: attempts, _ =>
    if code = some "STREAM_NOT_FOUND" then .deleted
    else classifyAttempts attempts (code.getD "UNKNOWN")

/-- `classify`: `getStream` says how the call for a stream ends in each attempt. -/
def classify (getStream : String → ℕ → Lookup) (streamId : String) : StreamState :=
  classifyAttempts ((List.range 3).map (getStream streamId)) "UNKNOWN"

/-! ### The sweep -/

/-- The other fields of `RetentionConfig` that the sweep reads. -/
structure OrphanConfig extends Retention.RetentionConfig where
  graceDays : ℚ
  abortFractionPercent : ℚ
  abortMinStreams : ℕ

/-- `graceMs`. -/
def graceMs (config : OrphanConfig) : ℚ :=
  Binary64.round (config.graceDays * Retention.dayMs)

/-- `fraction`. -/
def fraction (deleted total : ℕ) : ℚ :=
  if 0 < total then Binary64.round (deleted / total) else 0

/-- The guard on the number of deleted streams. -/
def isSuspicious (config : OrphanConfig) (deleted total : ℕ) : Bool :=
  config.abortMinStreams ≤ total ∧
    Binary64.round (config.abortFractionPercent / 100) < fraction deleted total

/-- `listStreamParts`, with its page size. -/
def listStreamParts (buckets : BucketTable) : List StreamPart :=
  (Retention.listStreamParts buckets).take 100000

/-- `streamIds`. -/
def listStreamIds (buckets : BucketTable) : List String :=
  ((listStreamParts buckets).map StreamPart.streamId).dedup

/-- The streams that `classify` finds deleted. -/
def deletedStreams (getStream : String → ℕ → Lookup) (streamIds : List String) : List String :=
  streamIds.filter fun streamId ↦ classify getStream streamId = .deleted

/-- A bucket that is to be deleted. -/
structure Candidate where
  streamPart : StreamPart
  bucketId : BucketId
  dateCreate : ℤ
  deriving DecidableEq

/-- `newest`: the newest timestamp in a bucket, or its date when it is empty. -/
def newest (data : StreamData) (streamPart : StreamPart) (bucket : BucketRow) : ℤ :=
  match ((data.select streamPart [bucket.columns.id] fun _ ↦ true).map
    fun row ↦ row.1.timestamp).max? with
  | some maxTs => maxTs
  | none => bucket.dateCreate

/-- The loop over the buckets of a stream part. -/
def collectCandidates (config : OrphanConfig) (data : StreamData) (now : ℤ)
    (streamPart : StreamPart) : List BucketRow → List Candidate → List Candidate
  | [], candidates => candidates
  | bucket :: buckets, candidates =>
    if config.bucketDeleteLimit ≤ candidates.length then candidates
    else collectCandidates config data now streamPart buckets
      (if graceMs config ≤ (now - newest data streamPart bucket : ℤ) then
        candidates ++ [⟨streamPart, bucket.columns.id, bucket.dateCreate⟩]
      else candidates)

/-- The candidates that `orphanSweep` collects: none when it gives up. -/
def candidatesOf (config : OrphanConfig) (tables : StoredTables)
    (getStream : String → ℕ → Lookup) (now : ℤ) : List Candidate :=
  let pairs := listStreamParts tables.buckets
  let streamIds := listStreamIds tables.buckets
  let errors := streamIds.filter fun streamId ↦ match classify getStream streamId with
    | .error _ => true
    | _ => false
  let deleted := deletedStreams getStream streamIds
  if 0 < errors.length then []
  else if isSuspicious config deleted.length streamIds.length then []
  else if deleted.length = 0 then []
  else (pairs.filter fun pair ↦ pair.streamId ∈ deleted).foldl (fun candidates streamPart ↦
    collectCandidates config tables.data now streamPart
      ((tables.buckets.select streamPart fun _ ↦ true).take defaultFetchSize) candidates) []

/-- The batch of a candidate. -/
def deleteCandidate (tables : StoredTables) (candidate : Candidate) : StoredTables :=
  tables.perform (.deleteBucket ⟨candidate.streamPart, candidate.dateCreate⟩
    (Retention.inBucket candidate.streamPart candidate.bucketId))

/-- `orphanSweep`: the tables after it, when the clock shows `now` and nothing else writes. -/
def orphanSweep (config : OrphanConfig) (tables : StoredTables)
    (getStream : String → ℕ → Lookup) (now : ℤ) : StoredTables :=
  (candidatesOf config tables getStream now).foldl deleteCandidate tables

/-! ### How a lookup ends -/

/-- The attempt fails with another error than "not found". -/
def OtherError (lookup : Lookup) : Prop :=
  lookup ≠ .found ∧ lookup ≠ .failed (some "STREAM_NOT_FOUND")

instance (lookup : Lookup) : Decidable (OtherError lookup) :=
  inferInstanceAs (Decidable (_ ∧ _))

/-- Of so many attempts, one says "not found" and all before it fail with other errors. -/
def EndsNotFound (attempts : ℕ) (lookups : ℕ → Lookup) : Prop :=
  ∃ attempt < attempts, lookups attempt = .failed (some "STREAM_NOT_FOUND") ∧
    ∀ earlier < attempt, OtherError (lookups earlier)

instance (attempts : ℕ) (lookups : ℕ → Lookup) : Decidable (EndsNotFound attempts lookups) :=
  inferInstanceAs (Decidable (∃ attempt < attempts, _ ∧ ∀ earlier < attempt, _))

/-- All attempts fail with other errors. -/
def EndsInError (attempts : ℕ) (lookups : ℕ → Lookup) : Prop :=
  ∀ attempt < attempts, OtherError (lookups attempt)

theorem classifyAttempts_eq_deleted_iff {attempts : ℕ} {lookups : ℕ → Lookup} {code : String} :
    classifyAttempts ((List.range attempts).map lookups) code = .deleted ↔
      EndsNotFound attempts lookups := by
  induction attempts generalizing lookups code with
  | zero => simp [classifyAttempts, EndsNotFound]
  | succ attempts ih =>
    rw [List.range_succ_eq_map, List.map_cons, List.map_map, Function.comp_def, EndsNotFound,
      Nat.exists_lt_succ_left]
    simp only [Nat.forall_lt_succ_left]
    cases hfirst : lookups 0 with
    | found => simp [classifyAttempts, OtherError]
    | failed error =>
      by_cases herror : error = some "STREAM_NOT_FOUND"
      · simp [classifyAttempts, herror]
      · simpa [classifyAttempts, herror, OtherError, EndsNotFound] using ih

theorem classifyAttempts_eq_error_iff {attempts : ℕ} {lookups : ℕ → Lookup} {code : String} :
    (∃ error, classifyAttempts ((List.range attempts).map lookups) code = .error error) ↔
      EndsInError attempts lookups := by
  induction attempts generalizing lookups code with
  | zero => simp [classifyAttempts, EndsInError]
  | succ attempts ih =>
    rw [List.range_succ_eq_map, List.map_cons, List.map_map, Function.comp_def, EndsInError,
      Nat.forall_lt_succ_left]
    cases hfirst : lookups 0 with
    | found => simp [classifyAttempts, OtherError]
    | failed error =>
      by_cases herror : error = some "STREAM_NOT_FOUND"
      · simp [classifyAttempts, herror, OtherError]
      · simpa [classifyAttempts, herror, OtherError, EndsInError] using ih

/-! ### The candidates -/

variable {config : OrphanConfig} {tables : StoredTables} {getStream : String → ℕ → Lookup} {now : ℤ}

/-- Nothing was written to a bucket during the grace period: all its messages are as old, and so is
the bucket itself when it has none. -/
structure PastGrace (config : OrphanConfig) (tables : StoredTables) (now : ℤ)
    (bucket : Candidate) : Prop where
  messages : ∀ key, tables.Stores key →
    Retention.inBucket bucket.streamPart bucket.bucketId key = true →
    graceMs config ≤ (now - key.timestamp : ℤ)
  empty : (∀ key, tables.Stores key →
    Retention.inBucket bucket.streamPart bucket.bucketId key = false) →
    graceMs config ≤ (now - bucket.dateCreate : ℤ)

/-- A bucket of the table, of a stream that was not found, in which nothing was written during the
grace period. -/
structure Orphaned (config : OrphanConfig) (tables : StoredTables)
    (getStream : String → ℕ → Lookup) (now : ℤ) (bucket : Candidate) : Prop where
  listed : ∃ columns, tables.buckets.get? ⟨bucket.streamPart, bucket.dateCreate⟩ = some columns ∧
    columns.id = bucket.bucketId
  notFound : EndsNotFound 3 (getStream bucket.streamPart.streamId)
  pastGrace : PastGrace config tables now bucket

theorem pastGrace_of_newest {streamPart : StreamPart} {bucket : BucketRow}
    (hgrace : graceMs config ≤ (now - newest tables.data streamPart bucket : ℤ)) :
    PastGrace config tables now ⟨streamPart, bucket.columns.id, bucket.dateCreate⟩ := by
  have hmem (timestamp : ℤ) := @mem_select_bucket tables streamPart bucket.columns.id timestamp
  unfold newest at hgrace
  split at hgrace <;> rename_i hmax
  case h_1 maxTs =>
    obtain ⟨hin, hlast⟩ := List.max?_eq_some_iff.mp hmax
    obtain ⟨newestKey, hnewest, hpart, hid, -⟩ := (hmem maxTs).mp hin
    refine ⟨fun key hkey hbucket ↦ ?_, fun hempty ↦ ?_⟩
    · obtain ⟨hkeyPart, hkeyId⟩ := of_decide_eq_true hbucket
      have hle := hlast key.timestamp ((hmem _).mpr ⟨key, hkey, hkeyPart, hkeyId, rfl⟩)
      exact hgrace.trans (by exact_mod_cast Int.sub_le_sub_left hle now)
    · exact absurd ⟨hpart, hid⟩ (of_decide_eq_false (hempty newestKey hnewest))
  case h_2 =>
    refine ⟨fun key hkey hbucket ↦ ?_, fun _ ↦ hgrace⟩
    obtain ⟨hkeyPart, hkeyId⟩ := of_decide_eq_true hbucket
    have hin := (hmem _).mpr ⟨key, hkey, hkeyPart, hkeyId, rfl⟩
    rw [List.max?_eq_none_iff.mp hmax] at hin
    cases hin

theorem length_collectCandidates_le {data : StreamData} {streamPart : StreamPart}
    {buckets : List BucketRow} {candidates : List Candidate}
    (hle : candidates.length ≤ config.bucketDeleteLimit) :
    (collectCandidates config data now streamPart buckets candidates).length ≤
      config.bucketDeleteLimit := by
  induction buckets generalizing candidates with
  | nil => exact hle
  | cons bucket buckets ih =>
    unfold collectCandidates
    split_ifs with hfull
    · exact hle
    · exact ih (by simp; omega)
    · exact ih hle

/-- A candidate was one before, or it is a bucket of the list in which nothing was written during
the grace period. -/
theorem mem_collectCandidates {streamPart : StreamPart} {buckets : List BucketRow}
    {candidates : List Candidate} {candidate : Candidate}
    (hmem : candidate ∈ collectCandidates config tables.data now streamPart buckets candidates) :
    candidate ∈ candidates ∨ PastGrace config tables now candidate ∧
      ∃ bucket ∈ buckets, candidate = ⟨streamPart, bucket.columns.id, bucket.dateCreate⟩ := by
  induction buckets generalizing candidates with
  | nil => exact Or.inl hmem
  | cons bucket buckets ih =>
    unfold collectCandidates at hmem
    split_ifs at hmem with hfull hgrace
    · exact Or.inl hmem
    · rcases ih hmem with hold | ⟨hpast, other, hother, heq⟩
      · rcases List.mem_append.mp hold with hold | hnew
        · exact Or.inl hold
        · obtain rfl := List.mem_singleton.mp hnew
          exact Or.inr ⟨pastGrace_of_newest hgrace, bucket, List.mem_cons_self, rfl⟩
      · exact Or.inr ⟨hpast, other, List.mem_cons_of_mem _ hother, heq⟩
    · rcases ih hmem with hold | ⟨hpast, other, hother, heq⟩
      · exact Or.inl hold
      · exact Or.inr ⟨hpast, other, List.mem_cons_of_mem _ hother, heq⟩

theorem length_listStreamIds_le (buckets : BucketTable) :
    (listStreamIds buckets).length ≤ 100000 :=
  calc (listStreamIds buckets).length
      ≤ ((listStreamParts buckets).map StreamPart.streamId).length :=
        (List.dedup_sublist _).length_le
    _ = (listStreamParts buckets).length := List.length_map _
    _ ≤ 100000 := List.length_take_le _ _

theorem mem_deletedStreams {streamIds : List String} {streamId : String} :
    streamId ∈ deletedStreams getStream streamIds ↔
      streamId ∈ streamIds ∧ EndsNotFound 3 (getStream streamId) := by
  rw [deletedStreams, List.mem_filter, decide_eq_true_iff, classify,
    classifyAttempts_eq_deleted_iff]

theorem length_deletedStreams (getStream : String → ℕ → Lookup) (streamIds : List String) :
    (deletedStreams getStream streamIds).length =
      streamIds.countP fun streamId ↦ EndsNotFound 3 (getStream streamId) := by
  rw [List.countP_eq_length_filter, deletedStreams]
  simp only [classify, classifyAttempts_eq_deleted_iff]

theorem length_candidatesOf_le (config : OrphanConfig) (tables : StoredTables)
    (getStream : String → ℕ → Lookup) (now : ℤ) :
    (candidatesOf config tables getStream now).length ≤ config.bucketDeleteLimit := by
  unfold candidatesOf
  dsimp only
  split_ifs
  any_goals exact Nat.zero_le _
  exact List.foldlRecOn (motive := fun candidates : List Candidate ↦
    candidates.length ≤ config.bucketDeleteLimit) _ _ (Nat.zero_le _)
    fun candidates hle streamPart _ ↦ length_collectCandidates_le hle

theorem orphaned_of_mem_candidatesOf {bucket : Candidate}
    (hmem : bucket ∈ candidatesOf config tables getStream now) :
    Orphaned config tables getStream now bucket := by
  unfold candidatesOf at hmem
  dsimp only at hmem
  split_ifs at hmem
  any_goals cases hmem
  refine List.foldlRecOn (motive := fun candidates ↦
    ∀ bucket ∈ candidates, Orphaned config tables getStream now bucket) _ _
    (fun _ hnone ↦ by cases hnone) (fun candidates horphaned streamPart hpart bucket hmem ↦ ?_)
    bucket hmem
  rcases mem_collectCandidates hmem with hold | ⟨hpast, row, hrow, rfl⟩
  · exact horphaned bucket hold
  · have hdeleted := of_decide_eq_true (List.mem_filter.mp hpart).2
    exact ⟨⟨row.columns, (BucketTable.mem_select.mp (List.mem_of_mem_take hrow)).1, rfl⟩,
      (mem_deletedStreams.mp hdeleted).2, hpast⟩

theorem candidatesOf_of_error {streamId : String}
    (hlisted : streamId ∈ listStreamIds tables.buckets)
    (herror : EndsInError 3 (getStream streamId)) :
    candidatesOf config tables getStream now = [] := by
  obtain ⟨error, hclassify⟩ := classifyAttempts_eq_error_iff.mpr herror
  refine if_pos (List.length_pos_of_mem (List.mem_filter.mpr ⟨hlisted, ?_⟩))
  rw [classify, hclassify]

theorem candidatesOf_of_suspicious
    (hsuspicious : isSuspicious config ((listStreamIds tables.buckets).countP
      fun streamId ↦ EndsNotFound 3 (getStream streamId)) (listStreamIds tables.buckets).length) :
    candidatesOf config tables getStream now = [] := by
  rw [← length_deletedStreams] at hsuspicious
  unfold candidatesOf
  dsimp only
  rw [if_pos hsuspicious, ite_self]

/-! ### The deletions -/

theorem get?_buckets_deleteCandidates (candidates : List Candidate) (tables : StoredTables)
    (key : BucketKey) : (candidates.foldl deleteCandidate tables).buckets.get? key =
      if ∃ bucket ∈ candidates, key = ⟨bucket.streamPart, bucket.dateCreate⟩ then none
      else tables.buckets.get? key := by
  induction candidates generalizing tables with
  | nil => simp
  | cons candidate candidates ih =>
    rw [List.foldl_cons, ih]
    simp only [List.exists_mem_cons_iff]
    by_cases hkey : key = ⟨candidate.streamPart, candidate.dateCreate⟩
    · subst hkey
      simp [deleteCandidate, StoredTables.perform]
    · simp only [hkey, false_or, deleteCandidate, StoredTables.perform]
      rw [OrderedMap.get?_delete_of_ne _ hkey]

theorem get?_data_deleteCandidates (candidates : List Candidate) (tables : StoredTables)
    (key : DataKey) : (candidates.foldl deleteCandidate tables).data.get? key =
      if ∃ bucket ∈ candidates, Retention.inBucket bucket.streamPart bucket.bucketId key = true
      then none else tables.data.get? key := by
  induction candidates generalizing tables with
  | nil => simp
  | cons candidate candidates ih =>
    rw [List.foldl_cons, ih]
    simp only [List.exists_mem_cons_iff, deleteCandidate, StoredTables.perform,
      OrderedMap.get?_filter]
    cases hbucket : Retention.inBucket candidate.streamPart candidate.bucketId key
    · cases tables.data.get? key <;> simp [Option.filter_some]
    · simp

/-! ### The roundings -/

/-- The fraction of deleted streams is the rounded quotient, also when there are no streams. -/
theorem fraction_eq (deleted total : ℕ) :
    fraction deleted total = Binary64.round (deleted / total) := by
  unfold fraction
  split_ifs with htotal
  · rfl
  · rw [Nat.eq_zero_of_not_pos htotal, Nat.cast_zero, div_zero, Binary64.round, if_pos rfl]

/-- Rounding keeps the order of values up to one that are farther apart than `2 ^ -52`. -/
theorem round_lt_round {first second : ℚ} (hone : second ≤ 1) (hzero : 0 ≤ second)
    (hgap : first + 1 / 2 ^ 52 < second) : Binary64.round first < Binary64.round second := by
  apply Binary64.round_lt_round
  rw [abs_of_nonneg hzero, div_lt_iff₀ (by norm_num)]
  rcases abs_cases first with ⟨habs, -⟩ | ⟨habs, -⟩ <;> rw [habs]
  · linarith
  · linarith

theorem roundedAbove_of_gap {limit : ℚ} {deleted total : ℕ} (hle : deleted ≤ total)
    (hgap : limit / 100 + 1 / 2 ^ 52 < deleted / total) :
    Binary64.round (limit / 100) < Binary64.round (deleted / total) :=
  round_lt_round (div_le_one_of_le₀ (by exact_mod_cast hle) (by positivity)) (by positivity) hgap

/-- Quotients of small numbers by a hundred and by a small number are far apart. -/
theorem gap_of_lt {first second total : ℕ} (hpos : 0 < total) (htotal : total ≤ 100000)
    (hlt : first * total < 100 * second) :
    (first / 100 + 1 / 2 ^ 52 : ℚ) < second / total := by
  have hsucc : (first * total + 1 : ℚ) ≤ 100 * second := by exact_mod_cast hlt
  have hcast : (total : ℚ) ≤ 100000 := by exact_mod_cast htotal
  rw [lt_div_iff₀ (by exact_mod_cast hpos)]
  linarith

theorem gap_of_gt {first second total : ℕ} (hpos : 0 < total) (htotal : total ≤ 100000)
    (hlt : 100 * second < first * total) :
    (second / total + 1 / 2 ^ 52 : ℚ) < first / 100 := by
  have hsucc : (100 * second + 1 : ℚ) ≤ first * total := by exact_mod_cast hlt
  have hcast : (total : ℚ) ≤ 100000 := by exact_mod_cast htotal
  have hcastPos : (0 : ℚ) < total := by exact_mod_cast hpos
  rw [← lt_sub_iff_add_lt, div_lt_iff₀ hcastPos]
  linarith

/-- Whole percents are compared exactly. -/
theorem roundedAbove_iff_of_whole {limit : ℚ} {deleted total percent : ℕ} (hle : deleted ≤ total)
    (htotal : total ≤ 100000) (hwhole : limit = percent) (hpercent : percent ≤ 100) :
    Binary64.round (limit / 100) < Binary64.round (deleted / total) ↔
      percent * total < 100 * deleted := by
  have hlimit : (percent / 100 : ℚ) ≤ 1 :=
    div_le_one_of_le₀ (by exact_mod_cast hpercent) (by norm_num)
  have hone : (deleted / total : ℚ) ≤ 1 := div_le_one_of_le₀ (by exact_mod_cast hle) (by positivity)
  rw [hwhole]
  obtain rfl | hpos := Nat.eq_zero_or_pos total
  · -- without streams, the fraction is zero
    obtain rfl := Nat.le_zero.mp hle
    rw [Nat.cast_zero, div_zero]
    refine iff_of_false (not_lt.mpr ?_) (by omega)
    obtain rfl | hpercentPos := Nat.eq_zero_or_pos percent
    · rw [Nat.cast_zero, zero_div]
    · refine (round_lt_round hlimit (by positivity) ?_).le
      have : (1 : ℚ) ≤ percent := by exact_mod_cast hpercentPos
      linarith
  rcases lt_trichotomy (percent * total) (100 * deleted) with hlt | heq | hgt
  · exact iff_of_true (round_lt_round hone (by positivity) (gap_of_lt hpos htotal hlt)) hlt
  · have hsame : (percent / 100 : ℚ) = deleted / total := by
      rw [div_eq_div_iff (by norm_num) (by exact_mod_cast hpos.ne'), mul_comm (deleted : ℚ)]
      exact_mod_cast heq
    rw [hsame, heq]
    simp
  · exact iff_of_false (round_lt_round hlimit (by positivity) (gap_of_gt hpos htotal hgt)).not_gt
      hgt.not_gt

theorem graceMs_of_whole {milliseconds : ℤ}
    (hwhole : config.graceDays * Retention.dayMs = milliseconds)
    (hsmall : |milliseconds| < 2 ^ 53) :
    graceMs config = milliseconds := by
  rw [graceMs, hwhole, Binary64.round_intCast hsmall]

/-! ### What a run deletes -/

/-- A run deletes some orphaned buckets, at most as many as its limit, with all their messages, and
nothing else. It deletes none when the lookup of a listed stream ended in another error, or when the
rounded fraction of streams that were not found is above the rounded limit. That is so when it is
above it by more than `2 ^ -52`, and exactly when it is above it if the percent is whole; a grace
period of whole milliseconds is not rounded. -/
theorem orphanSweep_spec (config : OrphanConfig) (tables : StoredTables)
    (getStream : String → ℕ → Lookup) (now : ℤ) :
    let after := orphanSweep config tables getStream now
    let streamIds := listStreamIds tables.buckets
    let total := streamIds.length
    let deleted := streamIds.countP fun streamId ↦ EndsNotFound 3 (getStream streamId)
    (∃ removed : List Candidate, removed.length ≤ config.bucketDeleteLimit ∧
      (∀ bucket ∈ removed, Orphaned config tables getStream now bucket) ∧
      ((∃ streamId ∈ streamIds, EndsInError 3 (getStream streamId)) → removed = []) ∧
      (config.abortMinStreams ≤ total →
        Binary64.round (config.abortFractionPercent / 100) < Binary64.round (deleted / total) →
        removed = []) ∧
      (∀ key, after.buckets.get? key =
        if ∃ bucket ∈ removed, key = ⟨bucket.streamPart, bucket.dateCreate⟩ then none
        else tables.buckets.get? key) ∧
      ∀ key, after.data.get? key =
        if ∃ bucket ∈ removed, Retention.inBucket bucket.streamPart bucket.bucketId key = true
        then none else tables.data.get? key) ∧
    (config.abortFractionPercent / 100 + 1 / 2 ^ 52 < (deleted / total : ℚ) →
      Binary64.round (config.abortFractionPercent / 100) < Binary64.round (deleted / total)) ∧
    (∀ percent : ℕ, config.abortFractionPercent = percent → percent ≤ 100 →
      (Binary64.round (config.abortFractionPercent / 100) < Binary64.round (deleted / total) ↔
        percent * total < 100 * deleted)) ∧
    ∀ milliseconds : ℤ, config.graceDays * Retention.dayMs = milliseconds →
      |milliseconds| < 2 ^ 53 → graceMs config = milliseconds := by
  have hle : ((listStreamIds tables.buckets).countP fun streamId ↦
      EndsNotFound 3 (getStream streamId)) ≤ (listStreamIds tables.buckets).length :=
    List.countP_le_length
  dsimp only
  refine ⟨⟨candidatesOf config tables getStream now, length_candidatesOf_le config tables _ now,
    fun bucket ↦ orphaned_of_mem_candidatesOf, ?_, ?_, get?_buckets_deleteCandidates _ tables,
    get?_data_deleteCandidates _ tables⟩, roundedAbove_of_gap hle,
    fun percent ↦ roundedAbove_iff_of_whole hle (length_listStreamIds_le _),
    fun milliseconds ↦ graceMs_of_whole⟩
  · rintro ⟨streamId, hlisted, herror⟩
    exact candidatesOf_of_error hlisted herror
  · intro hmin habove
    apply candidatesOf_of_suspicious
    rw [isSuspicious, decide_eq_true_iff, fraction_eq]
    exact ⟨hmin, habove⟩

/-- A limit that is below sixty percent by the distance of two numbers. -/
def tightConfig : OrphanConfig where
  bucketDeleteLimit := 100000
  rowDeleteLimit := 200000
  graceDays := 7
  abortFractionPercent := (60 * 2 ^ 47 - 1) / 2 ^ 47
  abortMinStreams := 5

/-- Five streams with an empty bucket each. -/
def fiveStreams : StoredTables where
  buckets := ["/one", "/two", "/three", "/four", "/five"].foldl (fun buckets streamId ↦
    if hne : streamId ≠ "" then buckets.set ⟨⟨streamId, 0, hne⟩, 0⟩ ⟨"bucket", 0, 0⟩ else buckets)
    OrderedMap.empty
  data := OrderedMap.empty

/-- Three of them were deleted. -/
def threeDeleted (streamId : String) (_ : ℕ) : Lookup :=
  if streamId ∈ ["/one", "/two", "/three"] then .failed (some "STREAM_NOT_FOUND") else .found

/-- More than the configured percentage of the streams are deleted, and the sweep deletes a
bucket. -/
theorem sweeps_above_limit :
    let streamIds := listStreamIds fiveStreams.buckets
    let key : BucketKey := ⟨⟨"/one", 0, by decide⟩, 0⟩
    Binary64.round tightConfig.abortFractionPercent = tightConfig.abortFractionPercent ∧
    tightConfig.abortMinStreams ≤ streamIds.length ∧
    tightConfig.abortFractionPercent / 100 < ((streamIds.countP fun streamId ↦
      EndsNotFound 3 (threeDeleted streamId) : ℕ) / (streamIds.length : ℕ) : ℚ) ∧
    fiveStreams.buckets.has key = true ∧
    (orphanSweep tightConfig fiveStreams threeDeleted (30 * Retention.dayMs)).buckets.has key =
      false := by
  decide +kernel

end PomboStorageNode.Storage.OrphanSweep
