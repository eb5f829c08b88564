import PomboStorageNode.Library.OrderedMap
import PomboStorageNode.Library.Transition
import Mathlib.Algebra.GroupWithZero.Nat
import Mathlib.Logic.ExistsUnique

/-!
# Batches of records on their way to the database

`BatchManager.ts` collects the records of each bucket in an open batch; a full batch, or one whose
close timer fires, is locked, becomes pending, and is inserted with retries. `Batch.ts` is the state
machine of one batch: opened, locked, pending, inserted. Timers and the completions of inserts fire
in any order with the calls of `store`, so the manager is a partial transition system (`step`) over
`Event`. Batches are objects that the two maps, the timers and the running inserts share: `objects`
holds them, and the id of a batch is its position there. What the database and the callers see is
kept in `History`.

The invariant is local. `view` is all a state says about one batch, `Fits` the five phases a batch
goes through, and an event moves the views of the batches it touches from phase to phase and leaves
every other view as it was. A record is where its batch is, so at every moment it is in exactly one
place (`records_conserved`).
-/

set_option autoImplicit false

namespace PomboStorageNode.Storage.BatchManager

open Library

/-! ### Batches -/

/-- The id of a bucket. -/
abbrev BucketId := String

/-- The id of a batch. -/
abbrev BatchId := ℕ

/-- `InsertRecord`. -/
structure InsertRecord where
  streamId : String
  partition : ℕ
  timestamp : ℕ
  sequenceNo : ℕ
  publisherId : String
  msgChainId : String
  payload : List UInt8
  storedAt : ℕ
  deriving DecidableEq

/-- A record object. Two calls of `store` make two objects, told apart by the number of the call,
even when the fields agree. -/
structure RecordObject where
  call : ℕ
  record : InsertRecord
  deriving DecidableEq

/-- `Batch.states`. -/
inductive BatchState
  | opened
  | locked
  | pending
  | inserted
  deriving DecidableEq

/-- What the armed timeout of a batch does when it fires. -/
inductive Timeout
  | lock
  | insert
  deriving DecidableEq

/-- `Batch`. A done callback is named by the call of `store` it belongs to. -/
structure Batch where
  bucketId : BucketId
  records : List RecordObject
  size : ℕ
  retries : ℕ
  state : BatchState
  doneCbs : List ℕ
  timeout : Option Timeout
  deriving DecidableEq

/-- `BatchManagerOptions`, within the bounds the constructor of `Batch` checks. -/
structure Options where
  batchMaxSize : ℕ
  batchMaxRecordCount : ℕ
  batchMaxRetries : ℕ
  batchMaxSize_pos : 0 < batchMaxSize
  batchMaxRecordCount_pos : 0 < batchMaxRecordCount
  batchMaxRetries_pos : 0 < batchMaxRetries

namespace Batch

/-- The constructor of `Batch`, with the close timer armed. -/
def new (bucketId : BucketId) : Batch := ⟨bucketId, [], 0, 0, .opened, [], some .lock⟩

/-- `isFull`. -/
def isFull (options : Options) (batch : Batch) : Bool :=
  options.batchMaxSize ≤ batch.size || options.batchMaxRecordCount ≤ batch.records.length

/-- `push`. -/
def push (batch : Batch) (object : RecordObject) (hasDoneCb : Bool) : Batch :=
  { batch with
    records := batch.records ++ [object]
    size := batch.size + object.record.payload.length
    doneCbs := if hasDoneCb then batch.doneCbs ++ [object.call] else batch.doneCbs }

/-- `scheduleInsert`: the insert timer replaces whatever was armed. -/
def scheduleInsert (batch : Batch) : Batch := { batch with timeout := some .insert }

/-- `lock` followed by the `scheduleInsert` of the `locked` listener. -/
def lock (batch : Batch) : Batch := scheduleInsert { batch with timeout := none, state := .locked }

/-- The insert timer fires. -/
def retry (options : Options) (batch : Batch) : Batch :=
  { batch with
    timeout := none
    retries := if batch.retries < options.batchMaxRetries then batch.retries + 1 else batch.retries
    state := .pending }

/-- `clear`. -/
def clear (batch : Batch) : Batch := { batch with timeout := none, records := [], state := .inserted }

/-- `reachedMaxRetries`. -/
def reachedMaxRetries (options : Options) (batch : Batch) : Bool :=
  batch.retries = options.batchMaxRetries

end Batch

/-! ### The manager -/

/-- One query of a Cassandra batch: the parameters that come from the record, and the bucket id. -/
structure Query where
  object : RecordObject
  bucketId : BucketId
  deriving DecidableEq

/-- A call of `insert` that waits for Cassandra. -/
structure Attempt where
  batchId : BatchId
  queries : List Query
  deriving DecidableEq

/-- A call of `store` that pushed its record. -/
structure Push where
  batchId : BatchId
  bucketId : BucketId
  object : RecordObject
  deriving DecidableEq

/-- A batch given up after its last retry. -/
structure Drop where
  batchId : BatchId
  records : List RecordObject
  deriving DecidableEq

/-- What has happened so far: the records pushed, the Cassandra batches that succeeded and failed,
the batches dropped, the done callbacks invoked, and the calls of `insert` that found no batch. -/
structure History where
  pushed : List Push
  written : List Attempt
  failed : List Attempt
  dropped : List Drop
  done : List ℕ
  absent : List BatchId

/-- The manager with its batch objects and the inserts that wait for Cassandra. -/
structure Manager where
  objects : List Batch
  batches : OrderedMap BucketId BatchId
  pendingBatches : OrderedSet BatchId
  inFlight : List Attempt
  history : History

/-- A new manager. -/
def initial : Manager := ⟨[], OrderedMap.empty, OrderedSet.empty, [], ⟨[], [], [], [], [], []⟩⟩

/-- A call or a callback: `store`, the two timers of a batch, the end of an insert, `stop`. -/
inductive Event
  | store (bucketId : BucketId) (record : InsertRecord) (hasDoneCb : Bool)
  | lockTimeout (batchId : BatchId)
  | insertTimeout (batchId : BatchId)
  | insertSucceeded (batchId : BatchId)
  | insertFailed (batchId : BatchId)
  | stop
  deriving DecidableEq

namespace Manager

/-- Changes a batch object. -/
def modify (manager : Manager) (batchId : BatchId) (change : Batch → Batch) : Manager :=
  { manager with objects := manager.objects.modify batchId change }

/-- `lock` on a batch object and the listener `moveFullBatch` it calls. -/
def lock (manager : Manager) (bucketId : BucketId) (batchId : BatchId) : Manager :=
  { manager.modify batchId Batch.lock with
    pendingBatches := manager.pendingBatches.add batchId
    batches := manager.batches.delete bucketId }

/-- The first part of `store`: a full open batch is locked. -/
def lockIfFull (options : Options) (manager : Manager) (bucketId : BucketId) : Manager :=
  match manager.batches.get? bucketId with
  | none => manager
  | some batchId =>
    match manager.objects[batchId]? with
    | none => manager
    | some batch => if batch.isFull options then manager.lock bucketId batchId else manager

/-- The second part of `store`: a bucket without an open batch gets one. -/
def ensureBatch (manager : Manager) (bucketId : BucketId) : Manager :=
  match manager.batches.get? bucketId with
  | some _ => manager
  | none =>
    { manager with
      objects := manager.objects ++ [Batch.new bucketId]
      batches := manager.batches.set bucketId manager.objects.length }

/-- The last part of `store`: the record goes into the open batch. -/
def pushRecord (manager : Manager) (bucketId : BucketId) (record : InsertRecord)
    (hasDoneCb : Bool) : Manager :=
  match manager.batches.get? bucketId with
  | none => manager
  | some batchId =>
    let object : RecordObject := ⟨manager.history.pushed.length, record⟩
    { manager.modify batchId fun batch ↦ batch.push object hasDoneCb with
      history := { manager.history with
        pushed := manager.history.pushed ++ [⟨batchId, bucketId, object⟩] } }

/-- `store`. The constructor of `Batch` throws on an empty bucket id, before anything is changed. -/
def store (options : Options) (manager : Manager) (bucketId : BucketId) (record : InsertRecord)
    (hasDoneCb : Bool) : Manager :=
  if bucketId = "" then manager
  else ((manager.lockIfFull options bucketId).ensureBatch bucketId).pushRecord bucketId record
    hasDoneCb

/-- The queries `insert` sends for a batch. -/
def queries (batch : Batch) : List Query :=
  batch.records.map fun object ↦ ⟨object, batch.bucketId⟩

/-- The insert timer of a batch fires: the `pending` listener calls `insert`, which runs up to its
await. It reads the batch from `pendingBatches`, and throws when it is not there. -/
def insert (options : Options) (manager : Manager) (batchId : BatchId) (batch : Batch) : Manager :=
  let waiting := manager.modify batchId (Batch.retry options)
  if batchId ∈ manager.pendingBatches then
    { waiting with inFlight := manager.inFlight ++ [⟨batchId, queries batch⟩] }
  else
    { waiting with history := { manager.history with absent := manager.history.absent ++ [batchId] } }

/-- Cassandra answers: `insert` resumes after its await. -/
def inserted (manager : Manager) (attempt : Attempt) (batch : Batch) : Manager :=
  { manager.modify attempt.batchId fun batch ↦ ({ batch with doneCbs := [] } : Batch).clear with
    pendingBatches := manager.pendingBatches.delete attempt.batchId
    inFlight := manager.inFlight.erase attempt
    history := { manager.history with
      written := manager.history.written ++ [attempt]
      done := manager.history.done ++ batch.doneCbs } }

/-- The Cassandra batch fails: the batch is dropped after the last retry, and otherwise scheduled
again. -/
def failed (options : Options) (manager : Manager) (attempt : Attempt) (batch : Batch) : Manager :=
  let history := { manager.history with failed := manager.history.failed ++ [attempt] }
  if batch.reachedMaxRetries options then
    { manager.modify attempt.batchId Batch.clear with
      pendingBatches := manager.pendingBatches.delete attempt.batchId
      inFlight := manager.inFlight.erase attempt
      history := { history with
        dropped := history.dropped ++ [⟨attempt.batchId, batch.records⟩] } }
  else
    { manager.modify attempt.batchId Batch.scheduleInsert with
      inFlight := manager.inFlight.erase attempt
      history := history }

/-- `stop`: both maps are emptied and the batches that were in them are cleared. -/
def stop (manager : Manager) : Manager :=
  { manager with
    objects := manager.objects.mapIdx fun batchId batch ↦
      if batchId ∈ manager.batches.values ∨ batchId ∈ manager.pendingBatches then batch.clear
      else batch
    batches := OrderedMap.empty
    pendingBatches := OrderedSet.empty }

end Manager

/-- The attempt of a batch that waits for Cassandra, with the batch object it holds. -/
def runningInsert (manager : Manager) (batchId : BatchId) : Option (Attempt × Batch) := do
  let attempt ← manager.inFlight.find? (·.batchId = batchId)
  let batch ← manager.objects[batchId]?
  pure (attempt, batch)

/-- A timer fires only while it is armed, and an insert ends only while it is running. -/
def step (options : Options) (manager : Manager) : Event → Option Manager
  | .store bucketId record hasDoneCb => some (manager.store options bucketId record hasDoneCb)
  | .lockTimeout batchId => do
    let batch ← manager.objects[batchId]?
    if batch.timeout = some .lock then some (manager.lock batch.bucketId batchId) else none
  | .insertTimeout batchId => do
    let batch ← manager.objects[batchId]?
    if batch.timeout = some .insert then some (manager.insert options batchId batch) else none
  | .insertSucceeded batchId => do
    let running ← runningInsert manager batchId
    pure (manager.inserted running.1 running.2)
  | .insertFailed batchId => do
    let running ← runningInsert manager batchId
    pure (manager.failed options running.1 running.2)
  | .stop => some manager.stop

/-! ### The phases of a batch -/

/-- What a state says about a batch outside its object: whether it is pending, the records pushed
into it, its inserts that run, succeeded and failed, and its drops. -/
structure Traces where
  isPending : Prop
  received : List RecordObject
  running : List Attempt
  written : List Attempt
  failed : List Attempt
  dropped : List Drop

/-- The traces of a batch in a state. -/
def traces (manager : Manager) (batchId : BatchId) : Traces where
  isPending := batchId ∈ manager.pendingBatches
  received := (manager.history.pushed.filter (·.batchId = batchId)).map (·.object)
  running := manager.inFlight.filter (·.batchId = batchId)
  written := manager.history.written.filter (·.batchId = batchId)
  failed := manager.history.failed.filter (·.batchId = batchId)
  dropped := manager.history.dropped.filter (·.batchId = batchId)

/-- The traces of a batch that does not exist yet. -/
def blank : Traces := ⟨False, [], [], [], [], []⟩

/-- The phases of a batch: open for records, waiting for its insert timer, in a running insert,
written, or dropped. -/
inductive Phase
  | opened
  | waiting
  | inserting
  | written
  | dropped

/-- The batch object and the traces of a batch are those of a phase. -/
def Fits (options : Options) (batchId : BatchId) (isOpen : Prop) (batch : Batch)
    (traces : Traces) : Phase → Prop
  | .opened => isOpen ∧ ¬ traces.isPending ∧ batch.timeout = some .lock ∧ batch.state = .opened ∧
      batch.records = traces.received ∧ batch.retries = 0 ∧ traces.running = [] ∧
      traces.written = [] ∧ traces.failed = [] ∧ traces.dropped = []
  | .waiting => ¬ isOpen ∧ traces.isPending ∧ batch.timeout = some .insert ∧
      batch.state ≠ .opened ∧ batch.records = traces.received ∧
      batch.retries < options.batchMaxRetries ∧ traces.failed.length = batch.retries ∧
      traces.running = [] ∧ traces.written = [] ∧ traces.dropped = []
  | .inserting => ¬ isOpen ∧ traces.isPending ∧ batch.timeout = none ∧ batch.state ≠ .opened ∧
      batch.records = traces.received ∧ batch.retries ≤ options.batchMaxRetries ∧
      traces.failed.length + 1 = batch.retries ∧
      traces.running = [⟨batchId, Manager.queries batch⟩] ∧ traces.written = [] ∧
      traces.dropped = []
  | .written => ¬ isOpen ∧ ¬ traces.isPending ∧ batch.timeout = none ∧ batch.state ≠ .opened ∧
      batch.records = [] ∧ traces.running = [] ∧
      traces.written = [⟨batchId, traces.received.map fun object ↦ ⟨object, batch.bucketId⟩⟩] ∧
      traces.dropped = []
  | .dropped => ¬ isOpen ∧ ¬ traces.isPending ∧ batch.timeout = none ∧ batch.state ≠ .opened ∧
      batch.records = [] ∧ traces.failed.length = options.batchMaxRetries ∧
      traces.running = [] ∧ traces.written = [] ∧ traces.dropped = [⟨batchId, traces.received⟩]

/-- The invariant of the manager: every batch is in a phase, a batch that does not exist yet has
left no trace, the open batches and the pushed records belong to existing batches of their bucket,
and the record objects are numbered by their calls. -/
structure Inv (options : Options) (manager : Manager) : Prop where
  fits : ∀ batchId batch, manager.objects[batchId]? = some batch → ∃ phase,
    Fits options batchId (manager.batches.get? batch.bucketId = some batchId) batch
      (traces manager batchId) phase
  blank : ∀ batchId, manager.objects[batchId]? = none → traces manager batchId = blank
  opened : ∀ bucketId batchId, manager.batches.get? bucketId = some batchId →
    ∃ batch, manager.objects[batchId]? = some batch ∧ batch.bucketId = bucketId
  pushed : ∀ push ∈ manager.history.pushed,
    ∃ batch, manager.objects[push.batchId]? = some batch ∧ batch.bucketId = push.bucketId
  calls : manager.history.pushed.map (·.object.call) = List.range manager.history.pushed.length

theorem inv_initial (options : Options) : Inv options initial where
  fits := by simp [initial]
  blank := by simp [initial, traces, BatchManager.blank]
  opened := by simp [initial]
  pushed := by simp [initial]
  calls := by simp [initial]

/-- A change that touches one batch keeps the invariant when that batch ends in a phase: the other
objects, their traces and their places among the open batches are as before. -/
theorem Inv.touch {options : Options} {before after : Manager} (hinv : Inv options before)
    (batchId : BatchId) (batch : Batch) (hbatch : after.objects[batchId]? = some batch)
    (hobjects : ∀ other, other ≠ batchId → after.objects[other]? = before.objects[other]?)
    (htraces : ∀ other, other ≠ batchId → traces after other = traces before other)
    (hbatches : ∀ bucketId other, other ≠ batchId →
      (after.batches.get? bucketId = some other ↔ before.batches.get? bucketId = some other))
    (hopened : ∀ bucketId, after.batches.get? bucketId = some batchId → batch.bucketId = bucketId)
    (hpushed : ∀ push ∈ after.history.pushed, push ∈ before.history.pushed ∨
      push.batchId = batchId ∧ push.bucketId = batch.bucketId)
    (hbucket : ∀ old, before.objects[batchId]? = some old → old.bucketId = batch.bucketId)
    (hcalls : after.history.pushed.map (·.object.call) =
      List.range after.history.pushed.length)
    (hfits : ∃ phase, Fits options batchId (after.batches.get? batch.bucketId = some batchId) batch
      (traces after batchId) phase) : Inv options after where
  fits := by
    intro other object hobject
    by_cases heq : other = batchId
    · subst heq
      obtain rfl : batch = object := Option.some.inj (hbatch.symm.trans hobject)
      exact hfits
    · rw [htraces other heq, hbatches _ other heq]
      exact hinv.fits other object ((hobjects other heq).symm.trans hobject)
  blank := by
    intro other hnone
    have heq : other ≠ batchId := by
      rintro rfl
      exact absurd (hbatch.symm.trans hnone) (by simp)
    rw [htraces other heq]
    exact hinv.blank other ((hobjects other heq).symm.trans hnone)
  opened := by
    intro bucketId other hopen
    by_cases heq : other = batchId
    · subst heq
      exact ⟨batch, hbatch, hopened bucketId hopen⟩
    · rw [hobjects other heq]
      exact hinv.opened bucketId other ((hbatches bucketId other heq).mp hopen)
  pushed := by
    intro push hpush
    rcases hpushed push hpush with hold | ⟨hid, hbucketId⟩
    · obtain ⟨object, hobject, heq⟩ := hinv.pushed push hold
      by_cases hsame : push.batchId = batchId
      · rw [hsame] at hobject ⊢
        exact ⟨batch, hbatch, (hbucket object hobject).symm.trans heq⟩
      · rw [hobjects _ hsame]
        exact ⟨object, hobject, heq⟩
    · exact ⟨batch, hid ▸ hbatch, hbucketId.symm⟩
  calls := hcalls

/-- Locking an open batch keeps the invariant. -/
theorem Inv.lock {options : Options} {manager : Manager} (hinv : Inv options manager)
    {batchId : BatchId} {batch : Batch} (hbatch : manager.objects[batchId]? = some batch)
    (hfits : Fits options batchId (manager.batches.get? batch.bucketId = some batchId) batch
      (traces manager batchId) .opened) :
    Inv options (manager.lock batch.bucketId batchId) := by
  obtain ⟨hopen, hpending, -, -, hrecords, hretries, hrunning, hwritten, hfailed, hdropped⟩ := hfits
  refine hinv.touch batchId batch.lock ?_ ?_ ?_ ?_ ?_ ?_ ?_ hinv.calls ⟨.waiting, ?_⟩
  · simp [Manager.lock, Manager.modify, hbatch]
  · intro other hne
    simp [Manager.lock, Manager.modify, hne.symm]
  · intro other hne
    simp [traces, Manager.lock, Manager.modify, hne]
  · intro bucketId other hne
    by_cases hbucket : bucketId = batch.bucketId
    · subst hbucket
      simp [Manager.lock, hopen, hne.symm]
    · simp [Manager.lock, hbucket]
  · intro bucketId hafter
    by_cases hbucket : bucketId = batch.bucketId
    · exact hbucket.symm
    · simp only [Manager.lock, OrderedMap.get?_delete_of_ne _ hbucket] at hafter
      obtain ⟨object, hobject, heq⟩ := hinv.opened bucketId batchId hafter
      obtain rfl : batch = object := Option.some.inj (hbatch.symm.trans hobject)
      exact heq
  · exact fun push hpush ↦ Or.inl hpush
  · intro old hold
    obtain rfl : old = batch := Option.some.inj (hold.symm.trans hbatch)
    rfl
  · refine ⟨?_, ?_, rfl, by simp [Batch.lock, Batch.scheduleInsert], hrecords, ?_, ?_, hrunning,
      hwritten, hdropped⟩
    · simp [Manager.lock, Batch.lock, Batch.scheduleInsert]
    · simp [traces, Manager.lock]
    · exact hretries ▸ options.batchMaxRetries_pos
    · exact (congrArg List.length hfailed).trans hretries.symm

/-- A batch without an open batch of its bucket gets a new one. -/
theorem Inv.ensureBatch {options : Options} {manager : Manager} (hinv : Inv options manager)
    (bucketId : BucketId) : Inv options (manager.ensureBatch bucketId) := by
  unfold Manager.ensureBatch
  cases hopen : manager.batches.get? bucketId with
  | some batchId => exact hinv
  | none =>
    have hnew : manager.objects[manager.objects.length]? = none := by simp
    have hblank := hinv.blank _ hnew
    refine hinv.touch manager.objects.length (Batch.new bucketId) ?_ ?_ ?_ ?_ ?_ ?_ ?_ hinv.calls
      ⟨.opened, ?_⟩
    · simp
    · intro other hne
      rcases Nat.lt_or_gt_of_ne hne with hlt | hgt
      · simp [List.getElem?_append_left hlt]
      · have hlong : (manager.objects ++ [Batch.new bucketId]).length ≤ other := by
          rw [List.length_append, List.length_singleton]
          omega
        rw [List.getElem?_eq_none hlong, List.getElem?_eq_none (Nat.le_of_lt hgt)]
    · exact fun other hne ↦ rfl
    · intro other batchId hne
      by_cases hbucket : other = bucketId
      · subst hbucket
        simp [hopen, hne.symm]
      · simp [hbucket]
    · intro other hafter
      by_cases hbucket : other = bucketId
      · exact hbucket.symm
      · rw [OrderedMap.get?_set_of_ne _ _ hbucket] at hafter
        obtain ⟨object, hobject, -⟩ := hinv.opened other _ hafter
        exact absurd (hnew.symm.trans hobject) (by simp)
    · exact fun push hpush ↦ Or.inl hpush
    · exact fun old hold ↦ absurd (hnew.symm.trans hold) (by simp)
    · have htraces : traces
          { manager with
            objects := manager.objects ++ [Batch.new bucketId]
            batches := manager.batches.set bucketId manager.objects.length }
          manager.objects.length = BatchManager.blank := hblank
      rw [htraces]
      simp [Fits, BatchManager.blank, Batch.new]

/-- A record pushed into the open batch of its bucket keeps the invariant. -/
theorem Inv.pushRecord {options : Options} {manager : Manager} (hinv : Inv options manager)
    (bucketId : BucketId) (record : InsertRecord) (hasDoneCb : Bool) :
    Inv options (manager.pushRecord bucketId record hasDoneCb) := by
  unfold Manager.pushRecord
  cases hopen : manager.batches.get? bucketId with
  | none => exact hinv
  | some batchId =>
    obtain ⟨batch, hbatch, rfl⟩ := hinv.opened bucketId batchId hopen
    obtain ⟨phase, hfits⟩ := hinv.fits batchId batch hbatch
    set object : RecordObject := ⟨manager.history.pushed.length, record⟩
    have hobject :
        (manager.objects.modify batchId fun batch ↦ batch.push object hasDoneCb)[batchId]? =
          some (batch.push object hasDoneCb) := by
      simp [hbatch]
    refine hinv.touch batchId (batch.push object hasDoneCb) hobject ?_ ?_ (fun _ _ _ ↦ Iff.rfl) ?_
      ?_ ?_ ?_ ?_
    · intro other hne
      simp [Manager.modify, hne.symm]
    · intro other hne
      simp [traces, Manager.modify, hne.symm]
    · intro other hafter
      obtain ⟨old, hold, heq⟩ := hinv.opened other batchId hafter
      obtain rfl : batch = old := Option.some.inj (hbatch.symm.trans hold)
      exact heq
    · intro push hpush
      rcases List.mem_append.mp hpush with hold | hnew
      · exact Or.inl hold
      · rw [List.mem_singleton.mp hnew]
        exact Or.inr ⟨rfl, rfl⟩
    · intro old hold
      obtain rfl : old = batch := Option.some.inj (hold.symm.trans hbatch)
      rfl
    · simp [hinv.calls, List.range_succ, object]
    · cases phase with
      | opened =>
        obtain ⟨hopen, hpending, htimeout, hstate, hrecords, hrest⟩ := hfits
        refine ⟨.opened, hopen, hpending, htimeout, hstate, ?_, hrest⟩
        simp only [Batch.push, hrecords, traces]
        simp [object]
      | waiting => exact absurd hopen hfits.1
      | inserting => exact absurd hopen hfits.1
      | written => exact absurd hopen hfits.1
      | dropped => exact absurd hopen hfits.1

/-- An open batch is in the phase `opened`. -/
theorem Inv.fits_opened {options : Options} {manager : Manager} (hinv : Inv options manager)
    {bucketId : BucketId} {batchId : BatchId} {batch : Batch}
    (hopen : manager.batches.get? bucketId = some batchId)
    (hbatch : manager.objects[batchId]? = some batch) :
    batch.bucketId = bucketId ∧ Fits options batchId
      (manager.batches.get? batch.bucketId = some batchId) batch (traces manager batchId)
      .opened := by
  obtain ⟨object, hobject, heq⟩ := hinv.opened bucketId batchId hopen
  obtain rfl : batch = object := Option.some.inj (hbatch.symm.trans hobject)
  subst heq
  obtain ⟨phase, hfits⟩ := hinv.fits batchId batch hbatch
  cases phase with
  | opened => exact ⟨rfl, hfits⟩
  | waiting => exact absurd hopen hfits.1
  | inserting => exact absurd hopen hfits.1
  | written => exact absurd hopen hfits.1
  | dropped => exact absurd hopen hfits.1

/-- The first part of `store` leaves the manager alone or locks the full open batch. -/
theorem Inv.lockIfFull_cases {options : Options} {manager : Manager} (hinv : Inv options manager)
    (bucketId : BucketId) : manager.lockIfFull options bucketId = manager ∨
      ∃ batchId batch, manager.objects[batchId]? = some batch ∧
        Fits options batchId (manager.batches.get? batch.bucketId = some batchId) batch
          (traces manager batchId) .opened ∧
        manager.lockIfFull options bucketId = manager.lock batch.bucketId batchId := by
  unfold Manager.lockIfFull
  cases hopen : manager.batches.get? bucketId with
  | none => exact Or.inl rfl
  | some batchId =>
    dsimp only
    cases hbatch : manager.objects[batchId]? with
    | none => exact Or.inl rfl
    | some batch =>
      dsimp only
      split_ifs with hfull
      · obtain ⟨rfl, hfits⟩ := hinv.fits_opened hopen hbatch
        exact Or.inr ⟨batchId, batch, hbatch, hfits, rfl⟩
      · exact Or.inl rfl

theorem Inv.lockIfFull {options : Options} {manager : Manager} (hinv : Inv options manager)
    (bucketId : BucketId) : Inv options (manager.lockIfFull options bucketId) := by
  rcases hinv.lockIfFull_cases bucketId with hsame | ⟨batchId, batch, hbatch, hfits, hlock⟩
  · rw [hsame]
    exact hinv
  · rw [hlock]
    exact hinv.lock hbatch hfits

/-- A call of `store` keeps the invariant. -/
theorem Inv.store {options : Options} {manager : Manager} (hinv : Inv options manager)
    (bucketId : BucketId) (record : InsertRecord) (hasDoneCb : Bool) :
    Inv options (manager.store options bucketId record hasDoneCb) := by
  unfold Manager.store
  split_ifs with hempty
  · exact hinv
  · exact ((hinv.lockIfFull bucketId).ensureBatch bucketId).pushRecord bucketId record hasDoneCb

/-- A change of one batch object and of its traces keeps the invariant when the batch ends in a
phase and no record is pushed, no batch opened or closed. -/
theorem Inv.advance {options : Options} {manager after : Manager} (hinv : Inv options manager)
    {batchId : BatchId} {batch : Batch} (hbatch : manager.objects[batchId]? = some batch)
    (change : Batch → Batch) (hbucketId : (change batch).bucketId = batch.bucketId)
    (hobjects : after.objects = manager.objects.modify batchId change)
    (hbatches : after.batches = manager.batches)
    (hpushed : after.history.pushed = manager.history.pushed)
    (htraces : ∀ other, other ≠ batchId → traces after other = traces manager other)
    (hfits : ∃ phase, Fits options batchId (manager.batches.get? batch.bucketId = some batchId)
      (change batch) (traces after batchId) phase) : Inv options after := by
  refine hinv.touch batchId (change batch) ?_ ?_ htraces ?_ ?_ ?_ ?_ ?_ ?_
  · simp [hobjects, hbatch]
  · intro other hne
    simp [hobjects, hne.symm]
  · exact fun bucketId other _ ↦ by rw [hbatches]
  · intro bucketId hafter
    rw [hbatches] at hafter
    obtain ⟨old, hold, heq⟩ := hinv.opened bucketId batchId hafter
    obtain rfl : batch = old := Option.some.inj (hbatch.symm.trans hold)
    exact hbucketId.trans heq
  · exact fun push hpush ↦ Or.inl (hpushed ▸ hpush)
  · intro old hold
    obtain rfl : old = batch := Option.some.inj (hold.symm.trans hbatch)
    exact hbucketId.symm
  · rw [hpushed]
    exact hinv.calls
  · rw [hbatches, hbucketId]
    exact hfits

/-- The insert timer of a waiting batch starts an insert. -/
theorem Inv.insert {options : Options} {manager : Manager} (hinv : Inv options manager)
    {batchId : BatchId} {batch : Batch} (hbatch : manager.objects[batchId]? = some batch)
    (htimeout : batch.timeout = some .insert) :
    Inv options (manager.insert options batchId batch) := by
  obtain ⟨phase, hfits⟩ := hinv.fits batchId batch hbatch
  cases phase with
  | waiting =>
    obtain ⟨hclosed, hpending, -, hstate, hrecords, hretries, hfailed, hrunning, hwritten,
      hdropped⟩ := hfits
    have hmem : batchId ∈ manager.pendingBatches := hpending
    simp only [Manager.insert, if_pos hmem]
    refine hinv.advance hbatch (Batch.retry options) rfl rfl rfl rfl ?_ ⟨.inserting, ?_⟩
    · intro other hne
      simp [traces, Manager.modify, hne.symm]
    · have hrun : manager.inFlight.filter (·.batchId = batchId) = [] := hrunning
      refine ⟨hclosed, hpending, rfl, by simp [Batch.retry], hrecords, ?_, ?_, ?_, hwritten,
        hdropped⟩
      · simp only [Batch.retry, if_pos hretries]
        exact hretries
      · simp only [Batch.retry, if_pos hretries]
        exact congrArg (· + 1) hfailed
      · simp [traces, List.filter_append, hrun, Batch.retry, Manager.queries]
  | opened => exact absurd (hfits.2.2.1.symm.trans htimeout) (by simp)
  | inserting => exact absurd (hfits.2.2.1.symm.trans htimeout) (by simp)
  | written => exact absurd (hfits.2.2.1.symm.trans htimeout) (by simp)
  | dropped => exact absurd (hfits.2.2.1.symm.trans htimeout) (by simp)

/-- The insert that Cassandra has not answered yet belongs to a batch in the phase `inserting`. -/
theorem Inv.fits_inserting {options : Options} {manager : Manager} (hinv : Inv options manager)
    {batchId : BatchId} {attempt : Attempt} {batch : Batch}
    (hrunning : runningInsert manager batchId = some (attempt, batch)) :
    manager.objects[batchId]? = some batch ∧ attempt = ⟨batchId, Manager.queries batch⟩ ∧
      Fits options batchId (manager.batches.get? batch.bucketId = some batchId) batch
        (traces manager batchId) .inserting := by
  simp only [runningInsert, Option.bind_eq_bind, Option.bind_eq_some_iff, Option.pure_def,
    Option.some.injEq, Prod.mk.injEq] at hrunning
  obtain ⟨found, hfound, object, hobject, rfl, rfl⟩ := hrunning
  have hid := List.find?_some hfound
  have hmem : found ∈ (traces manager batchId).running :=
    List.mem_filter.mpr ⟨List.mem_of_find?_eq_some hfound, hid⟩
  obtain ⟨phase, hfits⟩ := hinv.fits batchId object hobject
  cases phase with
  | inserting =>
    have hrun := hfits.2.2.2.2.2.2.2.1
    rw [hrun, List.mem_singleton] at hmem
    exact ⟨hobject, hmem, hfits⟩
  | opened => exact absurd (hfits.2.2.2.2.2.2.1 ▸ hmem) List.not_mem_nil
  | waiting => exact absurd (hfits.2.2.2.2.2.2.2.1 ▸ hmem) List.not_mem_nil
  | written => exact absurd (hfits.2.2.2.2.2.1 ▸ hmem) List.not_mem_nil
  | dropped => exact absurd (hfits.2.2.2.2.2.2.1 ▸ hmem) List.not_mem_nil

/-- Once its running insert has ended, a batch has none. -/
theorem filter_erase_running {inFlight : List Attempt} {batchId : BatchId} {attempt : Attempt}
    (hrunning : inFlight.filter (·.batchId = batchId) = [attempt]) :
    (inFlight.erase attempt).filter (·.batchId = batchId) = [] := by
  rw [← List.erase_filter, hrunning]
  simp

/-- The end of an insert leaves the running inserts of the other batches alone. -/
theorem filter_erase_of_ne (inFlight : List Attempt) (queries : List Query)
    {batchId other : BatchId} (hne : other ≠ batchId) :
    (inFlight.erase ⟨batchId, queries⟩).filter (·.batchId = other) =
      inFlight.filter (·.batchId = other) := by
  rw [← List.erase_filter]
  refine List.erase_of_not_mem fun hmem ↦ hne ?_
  have hid := (List.mem_filter.mp hmem).2
  exact (of_decide_eq_true hid).symm

/-- A successful insert keeps the invariant. -/
theorem Inv.inserted {options : Options} {manager : Manager} (hinv : Inv options manager)
    {batchId : BatchId} {attempt : Attempt} {batch : Batch}
    (hrunning : runningInsert manager batchId = some (attempt, batch)) :
    Inv options (manager.inserted attempt batch) := by
  obtain ⟨hbatch, rfl, hfits⟩ := hinv.fits_inserting hrunning
  obtain ⟨hclosed, -, -, -, hrecords, -, -, hrun, hwritten, hdropped⟩ := hfits
  refine hinv.advance hbatch (fun batch ↦ ({ batch with doneCbs := [] } : Batch).clear) rfl rfl rfl
    rfl ?_ ⟨.written, ?_⟩
  · intro other hne
    simp [traces, Manager.inserted, Manager.modify, hne, hne.symm, filter_erase_of_ne]
  · have hnone : manager.history.written.filter (·.batchId = batchId) = [] := hwritten
    refine ⟨hclosed, ?_, rfl, by simp [Batch.clear], rfl, filter_erase_running hrun, ?_, hdropped⟩
    · simp [traces, Manager.inserted]
    · simp only [traces, Manager.inserted, Manager.queries, List.filter_append, hnone, hrecords]
      simp [Batch.clear]

/-- A failed insert keeps the invariant. -/
theorem Inv.failed {options : Options} {manager : Manager} (hinv : Inv options manager)
    {batchId : BatchId} {attempt : Attempt} {batch : Batch}
    (hrunning : runningInsert manager batchId = some (attempt, batch)) :
    Inv options (manager.failed options attempt batch) := by
  obtain ⟨hbatch, rfl, hfits⟩ := hinv.fits_inserting hrunning
  obtain ⟨hclosed, hpending, -, hstate, hrecords, hretries, hfailed, hrun, hwritten, hdropped⟩ :=
    hfits
  have hcount : ((manager.history.failed ++ [(⟨batchId, Manager.queries batch⟩ : Attempt)]).filter
      (·.batchId = batchId)).length = batch.retries := by
    rw [List.filter_append, List.length_append, ← hfailed]
    simp [traces]
  unfold Manager.failed
  dsimp only
  split_ifs with hlast
  · -- the last retry is spent
    have hmax : batch.retries = options.batchMaxRetries := by
      simpa [Batch.reachedMaxRetries] using hlast
    refine hinv.advance hbatch Batch.clear rfl rfl rfl rfl ?_ ⟨.dropped, ?_⟩
    · intro other hne
      simp [traces, hne, hne.symm, filter_erase_of_ne]
    · have hnone : manager.history.dropped.filter (·.batchId = batchId) = [] := hdropped
      refine ⟨hclosed, by simp [traces], rfl, by simp [Batch.clear], rfl, hcount.trans hmax,
        filter_erase_running hrun, hwritten, ?_⟩
      simp only [traces, List.filter_append, hnone, hrecords]
      simp
  · have hleft : batch.retries ≠ options.batchMaxRetries := by
      simpa [Batch.reachedMaxRetries] using hlast
    refine hinv.advance hbatch Batch.scheduleInsert rfl rfl rfl rfl ?_ ⟨.waiting, ?_⟩
    · intro other hne
      simp [traces, Manager.modify, hne, hne.symm, filter_erase_of_ne]
    · exact ⟨hclosed, hpending, rfl, hstate, hrecords, Nat.lt_of_le_of_ne hretries hleft, hcount,
        filter_erase_running hrun, hwritten, hdropped⟩

/-- What a step can do: `store` always runs, a timer fires on a batch that has it armed, a running
insert ends, and `stop` clears the manager. -/
inductive Outcome (options : Options) (manager : Manager) : Event → Manager → Prop
  | store (bucketId : BucketId) (record : InsertRecord) (hasDoneCb : Bool) :
      Outcome options manager (.store bucketId record hasDoneCb)
        (manager.store options bucketId record hasDoneCb)
  | lock {batchId : BatchId} {batch : Batch} (hbatch : manager.objects[batchId]? = some batch)
      (htimeout : batch.timeout = some .lock) :
      Outcome options manager (.lockTimeout batchId) (manager.lock batch.bucketId batchId)
  | insert {batchId : BatchId} {batch : Batch} (hbatch : manager.objects[batchId]? = some batch)
      (htimeout : batch.timeout = some .insert) :
      Outcome options manager (.insertTimeout batchId) (manager.insert options batchId batch)
  | inserted {batchId : BatchId} {attempt : Attempt} {batch : Batch}
      (hrunning : runningInsert manager batchId = some (attempt, batch)) :
      Outcome options manager (.insertSucceeded batchId) (manager.inserted attempt batch)
  | failed {batchId : BatchId} {attempt : Attempt} {batch : Batch}
      (hrunning : runningInsert manager batchId = some (attempt, batch)) :
      Outcome options manager (.insertFailed batchId) (manager.failed options attempt batch)
  | stop : Outcome options manager .stop manager.stop

theorem outcome_of_step {options : Options} {manager after : Manager} {event : Event}
    (hstep : step options manager event = some after) : Outcome options manager event after := by
  cases event with
  | store bucketId record hasDoneCb =>
    obtain rfl := Option.some.inj hstep
    exact .store bucketId record hasDoneCb
  | lockTimeout batchId =>
    simp only [step, Option.bind_eq_bind, Option.bind_eq_some_iff, Option.ite_none_right_eq_some,
      Option.some.injEq] at hstep
    obtain ⟨batch, hbatch, htimeout, rfl⟩ := hstep
    exact .lock hbatch htimeout
  | insertTimeout batchId =>
    simp only [step, Option.bind_eq_bind, Option.bind_eq_some_iff, Option.ite_none_right_eq_some,
      Option.some.injEq] at hstep
    obtain ⟨batch, hbatch, htimeout, rfl⟩ := hstep
    exact .insert hbatch htimeout
  | insertSucceeded batchId =>
    simp only [step, Option.bind_eq_bind, Option.bind_eq_some_iff, Option.pure_def,
      Option.some.injEq] at hstep
    obtain ⟨⟨attempt, batch⟩, hrunning, rfl⟩ := hstep
    exact .inserted hrunning
  | insertFailed batchId =>
    simp only [step, Option.bind_eq_bind, Option.bind_eq_some_iff, Option.pure_def,
      Option.some.injEq] at hstep
    obtain ⟨⟨attempt, batch⟩, hrunning, rfl⟩ := hstep
    exact .failed hrunning
  | stop =>
    obtain rfl := Option.some.inj hstep
    exact .stop

/-- Every event but `stop` keeps the invariant. -/
theorem Inv.step {options : Options} {manager after : Manager} {event : Event}
    (hinv : Inv options manager) (hrunning : event ≠ .stop)
    (hstep : step options manager event = some after) : Inv options after := by
  cases outcome_of_step hstep with
  | store bucketId record hasDoneCb => exact hinv.store bucketId record hasDoneCb
  | @lock batchId batch hbatch htimeout =>
    obtain ⟨phase, hfits⟩ := hinv.fits batchId batch hbatch
    cases phase with
    | opened => exact hinv.lock hbatch hfits
    | waiting => exact absurd (hfits.2.2.1.symm.trans htimeout) (by simp)
    | inserting => exact absurd (hfits.2.2.1.symm.trans htimeout) (by simp)
    | written => exact absurd (hfits.2.2.1.symm.trans htimeout) (by simp)
    | dropped => exact absurd (hfits.2.2.1.symm.trans htimeout) (by simp)
  | insert hbatch htimeout => exact hinv.insert hbatch htimeout
  | inserted hattempt => exact hinv.inserted hattempt
  | failed hattempt => exact hinv.failed hattempt
  | stop => exact absurd rfl hrunning

/-- The states of the runs without `stop`. -/
def Running (options : Options) : Manager → Prop :=
  Transition.Reachable (step options) (fun _ event ↦ event ≠ .stop) (· = initial)

theorem Running.inv {options : Options} {manager : Manager} (hrunning : Running options manager) :
    Inv options manager :=
  Transition.Reachable.invariant (fun _ hstart ↦ hstart ▸ inv_initial options)
    (fun _ _ _ _ hinv hevent hstep ↦ hinv.step hevent hstep) hrunning

/-! ### Where a record is -/

/-- The places a record can be in. -/
inductive Place
  | openBatch (batchId : BatchId)
  | pendingBatch (batchId : BatchId)
  | written (batchId : BatchId)
  | dropped (batchId : BatchId)

/-- A pushed record is in a place: in the records of the open batch of its bucket, in the records of
a pending batch, in a Cassandra batch that succeeded, or in a batch dropped after as many failed
inserts as retries are allowed. -/
def LiesIn (options : Options) (manager : Manager) (push : Push) : Place → Prop
  | .openBatch batchId => manager.batches.get? push.bucketId = some batchId ∧
      ∃ batch, manager.objects[batchId]? = some batch ∧ push.object ∈ batch.records
  | .pendingBatch batchId => batchId ∈ manager.pendingBatches ∧
      ∃ batch, manager.objects[batchId]? = some batch ∧ push.object ∈ batch.records
  | .written batchId => ∃ attempt ∈ manager.history.written, attempt.batchId = batchId ∧
      ∃ query ∈ attempt.queries, query.object = push.object
  | .dropped batchId => ∃ drop ∈ manager.history.dropped, drop.batchId = batchId ∧
      push.object ∈ drop.records ∧
      (manager.history.failed.filter (·.batchId = batchId)).length = options.batchMaxRetries

/-- The place of the records of a batch in a phase. -/
def Phase.place (batchId : BatchId) : Phase → Place
  | .opened => .openBatch batchId
  | .waiting => .pendingBatch batchId
  | .inserting => .pendingBatch batchId
  | .written => .written batchId
  | .dropped => .dropped batchId

/-- A record object was pushed once. -/
theorem Inv.push_unique {options : Options} {manager : Manager} (hinv : Inv options manager)
    {first second : Push} (hfirst : first ∈ manager.history.pushed)
    (hsecond : second ∈ manager.history.pushed) (hobject : first.object = second.object) :
    first = second := by
  have hnodup : (manager.history.pushed.map (·.object.call)).Nodup := by
    rw [hinv.calls]
    exact List.nodup_range
  exact List.inj_on_of_nodup_map hnodup hfirst hsecond (congrArg RecordObject.call hobject)

/-- A record that a batch received was pushed into that batch. -/
theorem Inv.batchId_eq_of_received {options : Options} {manager : Manager}
    (hinv : Inv options manager) {push : Push} (hpush : push ∈ manager.history.pushed)
    {batchId : BatchId} (hreceived : push.object ∈ (traces manager batchId).received) :
    push.batchId = batchId := by
  obtain ⟨other, hother, hobject⟩ := List.mem_map.mp hreceived
  obtain ⟨hmem, hid⟩ := List.mem_filter.mp hother
  rw [← hinv.push_unique hmem hpush hobject]
  exact of_decide_eq_true hid

/-- A batch holds only records it received, whatever its phase. -/
theorem Fits.records_subset {options : Options} {batchId : BatchId} {isOpen : Prop} {batch : Batch}
    {traces : Traces} {phase : Phase} (hfits : Fits options batchId isOpen batch traces phase) :
    batch.records ⊆ traces.received := by
  cases phase with
  | opened => exact fun _ hmem ↦ hfits.2.2.2.2.1 ▸ hmem
  | waiting => exact fun _ hmem ↦ hfits.2.2.2.2.1 ▸ hmem
  | inserting => exact fun _ hmem ↦ hfits.2.2.2.2.1 ▸ hmem
  | written => exact hfits.2.2.2.2.1 ▸ List.nil_subset _
  | dropped => exact hfits.2.2.2.2.1 ▸ List.nil_subset _

theorem Inv.batchId_eq_of_records {options : Options} {manager : Manager}
    (hinv : Inv options manager) {push : Push} (hpush : push ∈ manager.history.pushed)
    {batchId : BatchId} {batch : Batch} (hbatch : manager.objects[batchId]? = some batch)
    (hrecord : push.object ∈ batch.records) : push.batchId = batchId := by
  obtain ⟨phase, hfits⟩ := hinv.fits batchId batch hbatch
  exact hinv.batchId_eq_of_received hpush (hfits.records_subset hrecord)

/-- The records of a batch are in the place of its phase. -/
theorem Inv.liesIn_place {options : Options} {manager : Manager} {push : Push}
    (hpush : push ∈ manager.history.pushed) {batch : Batch}
    (hbatch : manager.objects[push.batchId]? = some batch) (hbucketId : batch.bucketId = push.bucketId)
    {phase : Phase} (hfits : Fits options push.batchId
      (manager.batches.get? batch.bucketId = some push.batchId) batch
      (traces manager push.batchId) phase) :
    LiesIn options manager push (phase.place push.batchId) := by
  have hreceived : push.object ∈ (traces manager push.batchId).received :=
    List.mem_map.mpr ⟨push, List.mem_filter.mpr ⟨hpush, decide_eq_true rfl⟩, rfl⟩
  cases phase with
  | opened =>
    obtain ⟨hopen, -, -, -, hrecords, -⟩ := hfits
    exact ⟨hbucketId ▸ hopen, batch, hbatch, hrecords ▸ hreceived⟩
  | waiting =>
    obtain ⟨-, hpending, -, -, hrecords, -⟩ := hfits
    exact ⟨hpending, batch, hbatch, hrecords ▸ hreceived⟩
  | inserting =>
    obtain ⟨-, hpending, -, -, hrecords, -⟩ := hfits
    exact ⟨hpending, batch, hbatch, hrecords ▸ hreceived⟩
  | written =>
    obtain ⟨-, -, -, -, -, -, hwritten, -⟩ := hfits
    have hmem := List.mem_singleton_self
      (⟨push.batchId, (traces manager push.batchId).received.map fun object ↦
        ⟨object, batch.bucketId⟩⟩ : Attempt)
    rw [← hwritten] at hmem
    exact ⟨_, List.mem_of_mem_filter hmem, rfl, ⟨push.object, batch.bucketId⟩,
      List.mem_map.mpr ⟨push.object, hreceived, rfl⟩, rfl⟩
  | dropped =>
    obtain ⟨-, -, -, -, -, hfailed, -, -, hdropped⟩ := hfits
    have hmem := List.mem_singleton_self
      (⟨push.batchId, (traces manager push.batchId).received⟩ : Drop)
    rw [← hdropped] at hmem
    exact ⟨_, List.mem_of_mem_filter hmem, rfl, hreceived, hfailed⟩

/-- A Cassandra batch that succeeded carries what its batch received, under the id of its bucket. -/
theorem Inv.written_eq {options : Options} {manager : Manager} (hinv : Inv options manager)
    {attempt : Attempt} (hattempt : attempt ∈ manager.history.written) :
    ∃ batch, manager.objects[attempt.batchId]? = some batch ∧
      attempt.queries = (traces manager attempt.batchId).received.map
        (fun object ↦ ⟨object, batch.bucketId⟩) ∧
      Fits options attempt.batchId (manager.batches.get? batch.bucketId = some attempt.batchId)
        batch (traces manager attempt.batchId) .written := by
  have hmem : attempt ∈ (traces manager attempt.batchId).written :=
    List.mem_filter.mpr ⟨hattempt, decide_eq_true rfl⟩
  cases hbatch : manager.objects[attempt.batchId]? with
  | none =>
    rw [hinv.blank _ hbatch] at hmem
    exact absurd hmem List.not_mem_nil
  | some batch =>
    obtain ⟨phase, hfits⟩ := hinv.fits _ batch hbatch
    refine ⟨batch, rfl, ?_⟩
    cases phase with
    | written =>
      have hwritten := hfits.2.2.2.2.2.2.1
      rw [hwritten, List.mem_singleton] at hmem
      exact ⟨congrArg Attempt.queries hmem, hfits⟩
    | opened => exact absurd (hfits.2.2.2.2.2.2.2.1 ▸ hmem) List.not_mem_nil
    | waiting => exact absurd (hfits.2.2.2.2.2.2.2.2.1 ▸ hmem) List.not_mem_nil
    | inserting => exact absurd (hfits.2.2.2.2.2.2.2.2.1 ▸ hmem) List.not_mem_nil
    | dropped => exact absurd (hfits.2.2.2.2.2.2.2.1 ▸ hmem) List.not_mem_nil

/-- A dropped batch carries what it received. -/
theorem Inv.dropped_eq {options : Options} {manager : Manager} (hinv : Inv options manager)
    {drop : Drop} (hdrop : drop ∈ manager.history.dropped) :
    ∃ batch, manager.objects[drop.batchId]? = some batch ∧
      drop.records = (traces manager drop.batchId).received ∧
      Fits options drop.batchId (manager.batches.get? batch.bucketId = some drop.batchId)
        batch (traces manager drop.batchId) .dropped := by
  have hmem : drop ∈ (traces manager drop.batchId).dropped :=
    List.mem_filter.mpr ⟨hdrop, decide_eq_true rfl⟩
  cases hbatch : manager.objects[drop.batchId]? with
  | none =>
    rw [hinv.blank _ hbatch] at hmem
    exact absurd hmem List.not_mem_nil
  | some batch =>
    obtain ⟨phase, hfits⟩ := hinv.fits _ batch hbatch
    refine ⟨batch, rfl, ?_⟩
    cases phase with
    | dropped =>
      have hdropped := hfits.2.2.2.2.2.2.2.2
      rw [hdropped, List.mem_singleton] at hmem
      exact ⟨congrArg Drop.records hmem, hfits⟩
    | opened => exact absurd (hfits.2.2.2.2.2.2.2.2.2 ▸ hmem) List.not_mem_nil
    | waiting => exact absurd (hfits.2.2.2.2.2.2.2.2.2 ▸ hmem) List.not_mem_nil
    | inserting => exact absurd (hfits.2.2.2.2.2.2.2.2.2 ▸ hmem) List.not_mem_nil
    | written => exact absurd (hfits.2.2.2.2.2.2.2 ▸ hmem) List.not_mem_nil

/-- A batch is in one phase only. -/
theorem Fits.place_eq {options : Options} {batchId : BatchId} {isOpen : Prop} {batch : Batch}
    {traces : Traces} {first second : Phase}
    (hfirst : Fits options batchId isOpen batch traces first)
    (hsecond : Fits options batchId isOpen batch traces second) :
    first.place batchId = second.place batchId := by
  cases first <;> cases second <;> simp_all [Fits, Phase.place]

/-- A pushed record lies nowhere but in the place of the phase of its batch. -/
theorem Inv.place_unique {options : Options} {manager : Manager} (hinv : Inv options manager)
    {push : Push} (hpush : push ∈ manager.history.pushed) {batch : Batch}
    (hbatch : manager.objects[push.batchId]? = some batch) (hbucketId : batch.bucketId = push.bucketId)
    {phase : Phase} (hfits : Fits options push.batchId
      (manager.batches.get? batch.bucketId = some push.batchId) batch
      (traces manager push.batchId) phase)
    {place : Place} (hlies : LiesIn options manager push place) :
    place = phase.place push.batchId := by
  cases place with
  | openBatch batchId =>
    obtain ⟨hopen, object, hobject, hrecord⟩ := hlies
    obtain rfl := hinv.batchId_eq_of_records hpush hobject hrecord
    rw [← hbucketId] at hopen
    exact (hinv.fits_opened hopen hbatch).2.place_eq hfits
  | pendingBatch batchId =>
    obtain ⟨hpending, object, hobject, hrecord⟩ := hlies
    obtain rfl := hinv.batchId_eq_of_records hpush hobject hrecord
    cases phase with
    | waiting => rfl
    | inserting => rfl
    | opened => exact absurd hpending hfits.2.1
    | written => exact absurd hpending hfits.2.1
    | dropped => exact absurd hpending hfits.2.1
  | written batchId =>
    obtain ⟨attempt, hattempt, rfl, query, hquery, hobject⟩ := hlies
    obtain ⟨owner, howner, hqueries, hwritten⟩ := hinv.written_eq hattempt
    rw [hqueries] at hquery
    obtain ⟨object, hreceived, rfl⟩ := List.mem_map.mp hquery
    obtain rfl : object = push.object := hobject
    have hid := hinv.batchId_eq_of_received hpush hreceived
    rw [← hid] at howner hwritten ⊢
    obtain rfl : batch = owner := Option.some.inj (hbatch.symm.trans howner)
    exact hwritten.place_eq hfits
  | dropped batchId =>
    obtain ⟨drop, hdrop, rfl, hrecord, -⟩ := hlies
    obtain ⟨owner, howner, hrecords, hdropped⟩ := hinv.dropped_eq hdrop
    have hid := hinv.batchId_eq_of_received hpush (hrecords ▸ hrecord)
    rw [← hid] at howner hdropped ⊢
    obtain rfl : batch = owner := Option.some.inj (hbatch.symm.trans howner)
    exact hdropped.place_eq hfits

/-! ### Locked batches -/

/-- The batches that were locked before are there afterwards, locked and without new records. -/
def KeepsLocked (before after : Manager) : Prop :=
  ∀ (batchId : BatchId) (batch : Batch), before.objects[batchId]? = some batch →
    batch.state ≠ .opened → ∃ kept : Batch, after.objects[batchId]? = some kept ∧
      kept.state ≠ .opened ∧ kept.records ⊆ batch.records

theorem KeepsLocked.refl (manager : Manager) : KeepsLocked manager manager :=
  fun _ batch hbatch hstate ↦ ⟨batch, hbatch, hstate, List.Subset.refl _⟩

theorem KeepsLocked.trans {first second third : Manager} (hfirst : KeepsLocked first second)
    (hsecond : KeepsLocked second third) : KeepsLocked first third := by
  intro batchId batch hbatch hstate
  obtain ⟨middle, hmiddle, hmiddleState, hmiddleRecords⟩ := hfirst batchId batch hbatch hstate
  obtain ⟨kept, hkept, hkeptState, hkeptRecords⟩ := hsecond batchId middle hmiddle hmiddleState
  exact ⟨kept, hkept, hkeptState, List.Subset.trans hkeptRecords hmiddleRecords⟩

/-- A change of one object that locks it or leaves it locked, and adds no record. -/
theorem keepsLocked_of_modify {before after : Manager} (batchId : BatchId) (change : Batch → Batch)
    (hobjects : after.objects = before.objects.modify batchId change)
    (hstate : ∀ batch, batch.state ≠ .opened → (change batch).state ≠ .opened)
    (hrecords : ∀ batch, (change batch).records ⊆ batch.records) : KeepsLocked before after := by
  intro other batch hbatch hlocked
  by_cases heq : other = batchId
  · subst heq
    exact ⟨change batch, by simp [hobjects, hbatch], hstate batch hlocked, hrecords batch⟩
  · exact ⟨batch, by simp [hobjects, Ne.symm heq, hbatch], hlocked, List.Subset.refl _⟩

theorem keepsLocked_ensureBatch (manager : Manager) (bucketId : BucketId) :
    KeepsLocked manager (manager.ensureBatch bucketId) := by
  unfold Manager.ensureBatch
  cases manager.batches.get? bucketId with
  | some batchId => exact KeepsLocked.refl manager
  | none =>
    intro batchId batch hbatch hstate
    have hlt : batchId < manager.objects.length := (List.getElem?_eq_some_iff.mp hbatch).1
    exact ⟨batch, by simp [List.getElem?_append_left hlt, hbatch], hstate, List.Subset.refl _⟩

/-- The batch a record is pushed into is not locked. -/
theorem Inv.keepsLocked_pushRecord {options : Options} {manager : Manager}
    (hinv : Inv options manager) (bucketId : BucketId) (record : InsertRecord) (hasDoneCb : Bool) :
    KeepsLocked manager (manager.pushRecord bucketId record hasDoneCb) := by
  unfold Manager.pushRecord
  cases hopen : manager.batches.get? bucketId with
  | none => exact KeepsLocked.refl manager
  | some batchId =>
    intro other batch hbatch hlocked
    have hne : batchId ≠ other := by
      rintro rfl
      exact hlocked (hinv.fits_opened hopen hbatch).2.2.2.2.1
    exact ⟨batch, by simp [Manager.modify, hne, hbatch], hlocked, List.Subset.refl _⟩

theorem Inv.keepsLocked_store {options : Options} {manager : Manager} (hinv : Inv options manager)
    (bucketId : BucketId) (record : InsertRecord) (hasDoneCb : Bool) :
    KeepsLocked manager (manager.store options bucketId record hasDoneCb) := by
  unfold Manager.store
  split_ifs with hempty
  · exact KeepsLocked.refl manager
  · have hlock : KeepsLocked manager (manager.lockIfFull options bucketId) := by
      rcases hinv.lockIfFull_cases bucketId with hsame | ⟨batchId, batch, -, -, hlock⟩
      · rw [hsame]
        exact KeepsLocked.refl manager
      · rw [hlock]
        exact keepsLocked_of_modify batchId Batch.lock rfl
          (fun _ _ ↦ by simp [Batch.lock, Batch.scheduleInsert]) fun _ ↦ List.Subset.refl _
    exact (hlock.trans (keepsLocked_ensureBatch _ bucketId)).trans
      (((hinv.lockIfFull bucketId).ensureBatch bucketId).keepsLocked_pushRecord bucketId record
        hasDoneCb)

/-- No event but `stop` adds a record to a locked batch. -/
theorem Inv.keepsLocked_step {options : Options} {manager after : Manager} {event : Event}
    (hinv : Inv options manager) (hrunning : event ≠ .stop)
    (hstep : BatchManager.step options manager event = some after) : KeepsLocked manager after := by
  cases outcome_of_step hstep with
  | store bucketId record hasDoneCb => exact hinv.keepsLocked_store bucketId record hasDoneCb
  | lock _ _ =>
    exact keepsLocked_of_modify _ Batch.lock rfl
      (fun _ _ ↦ by simp [Batch.lock, Batch.scheduleInsert]) fun _ ↦ List.Subset.refl _
  | @insert batchId batch _ _ =>
    refine keepsLocked_of_modify batchId (Batch.retry options) ?_ (fun _ _ ↦ by simp [Batch.retry])
      fun _ ↦ List.Subset.refl _
    unfold Manager.insert
    split_ifs <;> rfl
  | inserted _ =>
    exact keepsLocked_of_modify _ (fun batch ↦ ({ batch with doneCbs := [] } : Batch).clear) rfl
      (fun _ _ ↦ by simp [Batch.clear]) fun _ ↦ List.nil_subset _
  | failed _ =>
    unfold Manager.failed
    dsimp only
    split_ifs with hlast
    · exact keepsLocked_of_modify _ Batch.clear rfl (fun _ _ ↦ by simp [Batch.clear])
        fun _ ↦ List.nil_subset _
    · exact keepsLocked_of_modify _ Batch.scheduleInsert rfl (fun _ hstate ↦ hstate)
        fun _ ↦ List.Subset.refl _
  | stop => exact absurd rfl hrunning

/-! ### Conservation of records -/

theorem history_lockIfFull (options : Options) (manager : Manager) (bucketId : BucketId) :
    (manager.lockIfFull options bucketId).history = manager.history := by
  unfold Manager.lockIfFull
  split
  · rfl
  · split
    · rfl
    · split <;> rfl

theorem history_ensureBatch (manager : Manager) (bucketId : BucketId) :
    (manager.ensureBatch bucketId).history = manager.history := by
  unfold Manager.ensureBatch
  split <;> rfl

/-- The bucket has an open batch after the second part of `store`. -/
theorem exists_open_ensureBatch (manager : Manager) (bucketId : BucketId) :
    ∃ batchId, (manager.ensureBatch bucketId).batches.get? bucketId = some batchId := by
  unfold Manager.ensureBatch
  split
  · next batchId hopen => exact ⟨batchId, hopen⟩
  · exact ⟨_, OrderedMap.get?_set_self _ _ _⟩

/-- `store` pushes its record once, into a batch of its bucket. -/
theorem store_pushes {options : Options} (manager : Manager) {bucketId : BucketId}
    (hbucketId : bucketId ≠ "") (record : InsertRecord) (hasDoneCb : Bool) :
    ∃ batchId, (manager.store options bucketId record hasDoneCb).history.pushed =
      manager.history.pushed ++
        [⟨batchId, bucketId, ⟨manager.history.pushed.length, record⟩⟩] := by
  obtain ⟨batchId, hopen⟩ :=
    exists_open_ensureBatch (manager.lockIfFull options bucketId) bucketId
  refine ⟨batchId, ?_⟩
  simp only [Manager.store, if_neg hbucketId, Manager.pushRecord, hopen, history_ensureBatch,
    history_lockIfFull]

/-- In every run without `stop`: a call of `store` pushes its record; a pushed record is in exactly
one place; no record is in two batches; no step adds a record to a batch that was locked; and a
query of a Cassandra batch carries the id of the bucket its record was stored for. Assumes: a state
of such a run. -/
theorem records_conserved {options : Options} {manager : Manager}
    (hrunning : Running options manager) :
    (∀ bucketId record hasDoneCb, bucketId ≠ "" → ∃ batchId,
      (manager.store options bucketId record hasDoneCb).history.pushed = manager.history.pushed ++
        [⟨batchId, bucketId, ⟨manager.history.pushed.length, record⟩⟩]) ∧
    (∀ push ∈ manager.history.pushed, ∃! place, LiesIn options manager push place) ∧
    (∀ push ∈ manager.history.pushed, ∀ (first second : BatchId) (firstBatch secondBatch : Batch),
      manager.objects[first]? = some firstBatch → manager.objects[second]? = some secondBatch →
      push.object ∈ firstBatch.records → push.object ∈ secondBatch.records → first = second) ∧
    (∀ event after, event ≠ .stop → step options manager event = some after →
      KeepsLocked manager after) ∧
    (∀ attempt ∈ manager.history.written, ∀ query ∈ attempt.queries,
      ∃ push ∈ manager.history.pushed, push.object = query.object ∧
        push.bucketId = query.bucketId) := by
  have hinv := hrunning.inv
  refine ⟨fun bucketId record hasDoneCb hbucketId ↦ store_pushes manager hbucketId record hasDoneCb,
    ?_, ?_, fun event after hevent hstep ↦ hinv.keepsLocked_step hevent hstep, ?_⟩
  · intro push hpush
    obtain ⟨batch, hbatch, hbucketId⟩ := hinv.pushed push hpush
    obtain ⟨phase, hfits⟩ := hinv.fits _ batch hbatch
    exact ⟨phase.place push.batchId, Inv.liesIn_place hpush hbatch hbucketId hfits,
      fun place hlies ↦ hinv.place_unique hpush hbatch hbucketId hfits hlies⟩
  · intro push hpush first second firstBatch secondBatch hfirst hsecond hfirstMem hsecondMem
    exact (hinv.batchId_eq_of_records hpush hfirst hfirstMem).symm.trans
      (hinv.batchId_eq_of_records hpush hsecond hsecondMem)
  · intro attempt hattempt query hquery
    obtain ⟨batch, hbatch, hqueries, -⟩ := hinv.written_eq hattempt
    rw [hqueries] at hquery
    obtain ⟨object, hreceived, rfl⟩ := List.mem_map.mp hquery
    obtain ⟨push, hpush, rfl⟩ := List.mem_map.mp hreceived
    obtain ⟨hmem, hid⟩ := List.mem_filter.mp hpush
    obtain ⟨owner, howner, hbucketId⟩ := hinv.pushed push hmem
    rw [of_decide_eq_true hid] at howner
    obtain rfl : batch = owner := Option.some.inj (hbatch.symm.trans howner)
    exact ⟨push, hmem, rfl, hbucketId.symm⟩

/-- One record a batch and two retries. -/
def smallOptions : Options := ⟨1, 1, 2, by decide, by decide, by decide⟩

/-- A record with an empty payload. -/
def emptyRecord : InsertRecord := ⟨"stream", 0, 0, 0, "publisher", "chain", [], 0⟩

/-- A second record fills the batch, and the insert of the first one fails twice. -/
def droppedTrace : List Event :=
  [.store "bucket" emptyRecord true, .store "bucket" emptyRecord true, .insertTimeout 0,
    .insertFailed 0, .insertTimeout 0, .insertFailed 0, .lockTimeout 1, .insertTimeout 1,
    .insertSucceeded 1]

theorem records_conserved_dropped_and_written :
    ∃ manager, Transition.run (step smallOptions) initial droppedTrace = some manager ∧
      (manager.history.dropped.length = 1 ∧ manager.history.written.length = 1) ∧
      ∀ push ∈ manager.history.pushed, ∃! place, LiesIn smallOptions manager push place := by
  refine ⟨_, rfl, by decide, (records_conserved ?_).2.1⟩
  refine Transition.Reachable.of_run droppedTrace (fun event hevent _ ↦ ?_) (.start rfl) rfl
  revert event
  decide

end PomboStorageNode.Storage.BatchManager
