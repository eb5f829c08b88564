import PomboStorageNode.Storage.BatchManager

/-!
# Batches in runs with `stop`

The phases of a batch in every run of `BatchManager`, also after `stop`: open, waiting for its
insert timer, in a running insert, or gone from both maps. A batch that is gone has no records and
no close timer, but it may still have an insert that runs, and a failure of that insert arms its
insert timer again. The timer then enters `insert` with an id that `pendingBatches` does not have
(`insert_of_absent_batch`). In the runs in which no insert of a batch that is gone fails with
retries left, every batch with an armed timer or a running insert is in one of the maps or cleared
for good (`tracked_of_failsTracked`).
-/

set_option autoImplicit false

namespace PomboStorageNode.Storage.BatchManager

open Library

/-! ### Stages -/

/-- The inserts of a batch that wait for Cassandra. -/
def runningOf (manager : Manager) (batchId : BatchId) : List Attempt :=
  manager.inFlight.filter (·.batchId = batchId)

/-- The stages of a batch. -/
inductive Stage
  | opened
  | waiting
  | inserting
  | gone

/-- A batch object is in a stage, with what holds of an object that is gone as a parameter. -/
def Stage.Holds (ofGone : Batch → Prop) (batchId : BatchId) (batch : Batch)
    (isOpen isPending : Prop) (running : List Attempt) : Stage → Prop
  | .opened => isOpen ∧ ¬ isPending ∧ batch.timeout = some .lock ∧ running = []
  | .waiting => ¬ isOpen ∧ isPending ∧ batch.timeout = some .insert ∧ running = []
  | .inserting => ¬ isOpen ∧ isPending ∧ batch.timeout = none ∧
      running = [⟨batchId, Manager.queries batch⟩]
  | .gone => ¬ isOpen ∧ ¬ isPending ∧ batch.timeout ≠ some .lock ∧ batch.records = [] ∧
      ofGone batch

/-- The stage of a batch in a state. -/
def At (ofGone : Batch → Prop) (manager : Manager) (batchId : BatchId) (batch : Batch)
    (stage : Stage) : Prop :=
  stage.Holds ofGone batchId batch (manager.batches.get? batch.bucketId = some batchId)
    (batchId ∈ manager.pendingBatches) (runningOf manager batchId)

/-- Every batch is in a stage, the open batches are batches of their buckets, and a batch that does
not exist yet is nowhere. -/
structure Staged (ofGone : Batch → Prop) (manager : Manager) : Prop where
  stage : ∀ batchId batch, manager.objects[batchId]? = some batch →
    ∃ stage, At ofGone manager batchId batch stage
  opened : ∀ bucketId batchId, manager.batches.get? bucketId = some batchId →
    ∃ batch, manager.objects[batchId]? = some batch ∧ batch.bucketId = bucketId
  blank : ∀ batchId, manager.objects[batchId]? = none →
    batchId ∉ manager.pendingBatches ∧ runningOf manager batchId = []

theorem staged_initial (ofGone : Batch → Prop) : Staged ofGone initial where
  stage := fun _ _ hbatch ↦ nomatch hbatch
  opened := fun _ _ hopen ↦ nomatch hopen
  blank := fun _ _ ↦ ⟨List.not_mem_nil, rfl⟩

variable {ofGone : Batch → Prop}

/-- A change that touches one batch keeps the stages when that batch ends in one. -/
theorem Staged.touch {before after : Manager} (hstaged : Staged ofGone before) (batchId : BatchId)
    (batch : Batch) (hbatch : after.objects[batchId]? = some batch)
    (hobjects : ∀ other, other ≠ batchId → after.objects[other]? = before.objects[other]?)
    (hpending : ∀ other, other ≠ batchId →
      (other ∈ after.pendingBatches ↔ other ∈ before.pendingBatches))
    (hrunning : ∀ other, other ≠ batchId → runningOf after other = runningOf before other)
    (hbatches : ∀ bucketId other, other ≠ batchId →
      (after.batches.get? bucketId = some other ↔ before.batches.get? bucketId = some other))
    (hopened : ∀ bucketId, after.batches.get? bucketId = some batchId → batch.bucketId = bucketId)
    (hstage : ∃ stage, At ofGone after batchId batch stage) : Staged ofGone after where
  stage := by
    intro other object hobject
    by_cases heq : other = batchId
    · subst heq
      obtain rfl : batch = object := Option.some.inj (hbatch.symm.trans hobject)
      exact hstage
    · obtain ⟨stage, hat⟩ := hstaged.stage other object ((hobjects other heq).symm.trans hobject)
      refine ⟨stage, ?_⟩
      rw [At, hrunning other heq, hbatches _ other heq, hpending other heq]
      exact hat
  opened := by
    intro bucketId other hopen
    by_cases heq : other = batchId
    · subst heq
      exact ⟨batch, hbatch, hopened bucketId hopen⟩
    · rw [hobjects other heq]
      exact hstaged.opened bucketId other ((hbatches bucketId other heq).mp hopen)
  blank := by
    intro other hnone
    have heq : other ≠ batchId := by
      rintro rfl
      exact absurd (hbatch.symm.trans hnone) (by simp)
    rw [hpending other heq, hrunning other heq]
    exact hstaged.blank other ((hobjects other heq).symm.trans hnone)

/-- A change of one batch object that leaves the open batches alone. -/
theorem Staged.advance {manager after : Manager} (hstaged : Staged ofGone manager)
    {batchId : BatchId} {batch : Batch} (hbatch : manager.objects[batchId]? = some batch)
    (change : Batch → Batch)
    (hbucketId : (change batch).bucketId = batch.bucketId)
    (hobjects : after.objects = manager.objects.modify batchId change)
    (hbatches : after.batches = manager.batches)
    (hpending : ∀ other, other ≠ batchId →
      (other ∈ after.pendingBatches ↔ other ∈ manager.pendingBatches))
    (hrunning : ∀ other, other ≠ batchId → runningOf after other = runningOf manager other)
    (hstage : ∃ stage, At ofGone after batchId (change batch) stage) : Staged ofGone after := by
  refine hstaged.touch batchId (change batch) ?_ ?_ hpending hrunning ?_ ?_ hstage
  · simp [hobjects, hbatch]
  · intro other hne
    simp [hobjects, hne.symm]
  · exact fun bucketId other _ ↦ by rw [hbatches]
  · intro bucketId hafter
    rw [hbatches] at hafter
    obtain ⟨old, hold, heq⟩ := hstaged.opened bucketId batchId hafter
    obtain rfl : batch = old := Option.some.inj (hbatch.symm.trans hold)
    exact hbucketId.trans heq

/-- The open batch of a bucket is in the stage `opened`. -/
theorem Staged.at_opened {manager : Manager} (hstaged : Staged ofGone manager) {bucketId : BucketId}
    {batchId : BatchId} {batch : Batch} (hopen : manager.batches.get? bucketId = some batchId)
    (hbatch : manager.objects[batchId]? = some batch) :
    batch.bucketId = bucketId ∧ At ofGone manager batchId batch .opened := by
  obtain ⟨object, hobject, heq⟩ := hstaged.opened bucketId batchId hopen
  obtain rfl : batch = object := Option.some.inj (hbatch.symm.trans hobject)
  subst heq
  obtain ⟨stage, hat⟩ := hstaged.stage batchId batch hbatch
  cases stage with
  | opened => exact ⟨rfl, hat⟩
  | waiting => exact absurd hopen hat.1
  | inserting => exact absurd hopen hat.1
  | gone => exact absurd hopen hat.1

/-- A batch with its close timer armed is open. -/
theorem Staged.at_opened_of_timeout {manager : Manager} (hstaged : Staged ofGone manager)
    {batchId : BatchId} {batch : Batch} (hbatch : manager.objects[batchId]? = some batch)
    (htimeout : batch.timeout = some .lock) : At ofGone manager batchId batch .opened := by
  obtain ⟨stage, hat⟩ := hstaged.stage batchId batch hbatch
  cases stage with
  | opened => exact hat
  | waiting => exact absurd (hat.2.2.1.symm.trans htimeout) (by simp)
  | inserting => exact absurd (hat.2.2.1.symm.trans htimeout) (by simp)
  | gone => exact absurd htimeout hat.2.2.1

/-- A batch with its insert timer armed waits for it, or is gone. -/
theorem Staged.at_of_insertTimeout {manager : Manager} (hstaged : Staged ofGone manager)
    {batchId : BatchId} {batch : Batch} (hbatch : manager.objects[batchId]? = some batch)
    (htimeout : batch.timeout = some .insert) :
    At ofGone manager batchId batch .waiting ∨ At ofGone manager batchId batch .gone := by
  obtain ⟨stage, hat⟩ := hstaged.stage batchId batch hbatch
  cases stage with
  | opened => exact absurd (hat.2.2.1.symm.trans htimeout) (by simp)
  | waiting => exact Or.inl hat
  | inserting => exact absurd (hat.2.2.1.symm.trans htimeout) (by simp)
  | gone => exact Or.inr hat

/-- What `runningInsert` finds. -/
theorem runningInsert_eq_some {manager : Manager} {batchId : BatchId} {attempt : Attempt}
    {batch : Batch} (hrunning : runningInsert manager batchId = some (attempt, batch)) :
    manager.objects[batchId]? = some batch ∧ attempt.batchId = batchId ∧
      attempt ∈ runningOf manager batchId := by
  simp only [runningInsert, Option.bind_eq_bind, Option.bind_eq_some_iff, Option.pure_def,
    Option.some.injEq, Prod.mk.injEq] at hrunning
  obtain ⟨found, hfound, object, hobject, rfl, rfl⟩ := hrunning
  have hid := List.find?_some hfound
  exact ⟨hobject, of_decide_eq_true hid,
    List.mem_filter.mpr ⟨List.mem_of_find?_eq_some hfound, hid⟩⟩

/-- The running insert is that of a batch in the stage `inserting`, or of one that is gone. -/
theorem Staged.at_of_running {manager : Manager} (hstaged : Staged ofGone manager)
    {batchId : BatchId} {attempt : Attempt} {batch : Batch}
    (hrunning : runningInsert manager batchId = some (attempt, batch)) :
    (At ofGone manager batchId batch .inserting ∧ attempt = ⟨batchId, Manager.queries batch⟩) ∨
      At ofGone manager batchId batch .gone := by
  obtain ⟨hbatch, -, hmem⟩ := runningInsert_eq_some hrunning
  obtain ⟨stage, hat⟩ := hstaged.stage batchId batch hbatch
  cases stage with
  | opened => exact absurd (hat.2.2.2 ▸ hmem) List.not_mem_nil
  | waiting => exact absurd (hat.2.2.2 ▸ hmem) List.not_mem_nil
  | inserting =>
    rw [hat.2.2.2, List.mem_singleton] at hmem
    exact Or.inl ⟨hat, hmem⟩
  | gone => exact Or.inr hat

/-! ### The operations -/

theorem Staged.lock {manager : Manager} (hstaged : Staged ofGone manager) {batchId : BatchId}
    {batch : Batch} (hbatch : manager.objects[batchId]? = some batch)
    (hat : At ofGone manager batchId batch .opened) :
    Staged ofGone (manager.lock batch.bucketId batchId) := by
  obtain ⟨hopen, hpending, -, hrunning⟩ := hat
  refine hstaged.touch batchId batch.lock ?_ ?_ ?_ (fun _ _ ↦ rfl) ?_ ?_ ⟨.waiting, ?_, ?_, rfl, ?_⟩
  · simp [Manager.lock, Manager.modify, hbatch]
  · intro other hne
    simp [Manager.lock, Manager.modify, hne.symm]
  · intro other hne
    simp [Manager.lock, hne]
  · intro bucketId other hne
    by_cases hbucket : bucketId = batch.bucketId
    · subst hbucket
      simp [Manager.lock, hopen, hne.symm]
    · simp [Manager.lock, hbucket]
  · intro bucketId hafter
    by_cases hbucket : bucketId = batch.bucketId
    · exact hbucket.symm
    · simp only [Manager.lock, OrderedMap.get?_delete_of_ne _ hbucket] at hafter
      obtain ⟨object, hobject, heq⟩ := hstaged.opened bucketId batchId hafter
      obtain rfl : batch = object := Option.some.inj (hbatch.symm.trans hobject)
      exact heq
  · simp [Manager.lock, Batch.lock, Batch.scheduleInsert]
  · simp [Manager.lock]
  · exact hrunning

theorem Staged.lockIfFull_cases {manager : Manager} (hstaged : Staged ofGone manager)
    (options : Options) (bucketId : BucketId) :
    manager.lockIfFull options bucketId = manager ∨
      ∃ batchId batch, manager.objects[batchId]? = some batch ∧
        At ofGone manager batchId batch .opened ∧
        manager.lockIfFull options bucketId = manager.lock batch.bucketId batchId := by
  unfold Manager.lockIfFull
  cases hopen : manager.batches.get? bucketId with
  | none => exact Or.inl rfl
  | some batchId =>
    dsimp only
    cases hbatch : manager.objects[batchId]? with
    | none => exact Or.inl rfl
    | some batch =>
      dsimp only
      split_ifs with hfull
      · obtain ⟨rfl, hat⟩ := hstaged.at_opened hopen hbatch
        exact Or.inr ⟨batchId, batch, hbatch, hat, rfl⟩
      · exact Or.inl rfl

theorem Staged.lockIfFull {options : Options} {manager : Manager} (hstaged : Staged ofGone manager)
    (bucketId : BucketId) : Staged ofGone (manager.lockIfFull options bucketId) := by
  rcases hstaged.lockIfFull_cases options bucketId with hsame | ⟨batchId, batch, hbatch, hat, hlock⟩
  · rw [hsame]
    exact hstaged
  · rw [hlock]
    exact hstaged.lock hbatch hat

theorem getElem?_append_of_ne {objects : List Batch} {batch : Batch} {other : BatchId}
    (hne : other ≠ objects.length) : (objects ++ [batch])[other]? = objects[other]? := by
  rcases Nat.lt_or_gt_of_ne hne with hlt | hgt
  · exact List.getElem?_append_left hlt
  · have hlong : (objects ++ [batch]).length ≤ other := by
      rw [List.length_append, List.length_singleton]
      omega
    rw [List.getElem?_eq_none hlong, List.getElem?_eq_none (Nat.le_of_lt hgt)]

theorem Staged.ensureBatch {manager : Manager} (hstaged : Staged ofGone manager)
    (bucketId : BucketId) : Staged ofGone (manager.ensureBatch bucketId) := by
  unfold Manager.ensureBatch
  cases hopen : manager.batches.get? bucketId with
  | some batchId => exact hstaged
  | none =>
    have hnew : manager.objects[manager.objects.length]? = none := by simp
    obtain ⟨hpending, hrunning⟩ := hstaged.blank _ hnew
    refine hstaged.touch manager.objects.length (Batch.new bucketId) (by simp)
      (fun other hne ↦ getElem?_append_of_ne hne) (fun _ _ ↦ Iff.rfl) (fun _ _ ↦ rfl) ?_ ?_
      ⟨.opened, by simp [Batch.new], hpending, rfl, hrunning⟩
    · intro other batchId hne
      by_cases hbucket : other = bucketId
      · subst hbucket
        simp [hopen, hne.symm]
      · simp [hbucket]
    · intro other hafter
      by_cases hbucket : other = bucketId
      · exact hbucket.symm
      · rw [OrderedMap.get?_set_of_ne _ _ hbucket] at hafter
        obtain ⟨object, hobject, -⟩ := hstaged.opened other _ hafter
        exact absurd (hnew.symm.trans hobject) (by simp)

theorem Staged.pushRecord {manager : Manager} (hstaged : Staged ofGone manager)
    (bucketId : BucketId) (record : InsertRecord) (hasDoneCb : Bool) :
    Staged ofGone (manager.pushRecord bucketId record hasDoneCb) := by
  unfold Manager.pushRecord
  cases hopen : manager.batches.get? bucketId with
  | none => exact hstaged
  | some batchId =>
    obtain ⟨batch, hbatch, rfl⟩ := hstaged.opened bucketId batchId hopen
    obtain ⟨-, hat⟩ := hstaged.at_opened hopen hbatch
    exact hstaged.advance hbatch (·.push ⟨manager.history.pushed.length, record⟩ hasDoneCb) rfl rfl
      rfl (fun _ _ ↦ Iff.rfl) (fun _ _ ↦ rfl) ⟨.opened, hat⟩

theorem Staged.store {options : Options} {manager : Manager} (hstaged : Staged ofGone manager)
    (bucketId : BucketId) (record : InsertRecord) (hasDoneCb : Bool) :
    Staged ofGone (manager.store options bucketId record hasDoneCb) := by
  unfold Manager.store
  split_ifs with hempty
  · exact hstaged
  · exact ((hstaged.lockIfFull bucketId).ensureBatch bucketId).pushRecord bucketId record hasDoneCb

theorem Staged.insert {options : Options} {manager : Manager} (hstaged : Staged ofGone manager)
    {batchId : BatchId} {batch : Batch} (hbatch : manager.objects[batchId]? = some batch)
    (htimeout : batch.timeout = some .insert)
    (hretry : ofGone batch → ofGone (batch.retry options)) :
    Staged ofGone (manager.insert options batchId batch) := by
  rcases hstaged.at_of_insertTimeout hbatch htimeout with hat | hat
  · have hmem : batchId ∈ manager.pendingBatches := hat.2.1
    simp only [Manager.insert, if_pos hmem]
    refine hstaged.advance hbatch (Batch.retry options) rfl rfl rfl (fun _ _ ↦ Iff.rfl) ?_
      ⟨.inserting, hat.1, hmem, rfl, ?_⟩
    · intro other hne
      simp [runningOf, hne.symm]
    · have hnone : manager.inFlight.filter (·.batchId = batchId) = [] := hat.2.2.2
      simp [runningOf, List.filter_append, hnone, Batch.retry, Manager.queries]
  · have hmem : batchId ∉ manager.pendingBatches := hat.2.1
    simp only [Manager.insert, if_neg hmem]
    exact hstaged.advance hbatch (Batch.retry options) rfl rfl rfl (fun _ _ ↦ Iff.rfl)
      (fun _ _ ↦ rfl) ⟨.gone, hat.1, hmem, by simp [Batch.retry], hat.2.2.2.1,
        hretry hat.2.2.2.2⟩

theorem runningOf_erase {manager : Manager} {batchId other : BatchId} {attempt : Attempt}
    (hid : attempt.batchId = batchId) (hne : other ≠ batchId) :
    (manager.inFlight.erase attempt).filter (·.batchId = other) = runningOf manager other := by
  obtain ⟨id, queries⟩ := attempt
  obtain rfl : id = batchId := hid
  exact filter_erase_of_ne manager.inFlight queries hne

/-- A batch whose insert has ended and that is in no map is gone, whatever it was before. -/
theorem Staged.not_open_of_running {manager : Manager} (hstaged : Staged ofGone manager)
    {batchId : BatchId} {attempt : Attempt} {batch : Batch}
    (hrunning : runningInsert manager batchId = some (attempt, batch)) :
    manager.batches.get? batch.bucketId ≠ some batchId := by
  rcases hstaged.at_of_running hrunning with ⟨hat, -⟩ | hat
  · exact hat.1
  · exact hat.1

theorem Staged.inserted {manager : Manager} (hstaged : Staged ofGone manager) {batchId : BatchId}
    {attempt : Attempt} {batch : Batch}
    (hrunning : runningInsert manager batchId = some (attempt, batch))
    (hclear : ∀ batch : Batch, ofGone batch.clear) :
    Staged ofGone (manager.inserted attempt batch) := by
  obtain ⟨hbatch, hid, -⟩ := runningInsert_eq_some hrunning
  have hclosed := hstaged.not_open_of_running hrunning
  subst hid
  refine hstaged.advance hbatch (fun batch ↦ ({ batch with doneCbs := [] } : Batch).clear) rfl rfl
    rfl ?_ (fun _ hne ↦ runningOf_erase rfl hne)
    ⟨.gone, hclosed, by simp [Manager.inserted], by simp [Batch.clear], rfl, hclear _⟩
  intro other hne
  simp [Manager.inserted, hne]

theorem Staged.failed {options : Options} {manager : Manager} (hstaged : Staged ofGone manager)
    {batchId : BatchId} {attempt : Attempt} {batch : Batch}
    (hrunning : runningInsert manager batchId = some (attempt, batch))
    (hclear : ∀ batch : Batch, ofGone batch.clear)
    (hschedule : batchId ∉ manager.pendingBatches → batch.reachedMaxRetries options = false →
      ofGone batch.scheduleInsert) :
    Staged ofGone (manager.failed options attempt batch) := by
  obtain ⟨hbatch, hid, -⟩ := runningInsert_eq_some hrunning
  have hclosed := hstaged.not_open_of_running hrunning
  subst hid
  unfold Manager.failed
  dsimp only
  split_ifs with hlast
  · refine hstaged.advance hbatch Batch.clear rfl rfl rfl ?_ (fun _ hne ↦ runningOf_erase rfl hne)
      ⟨.gone, hclosed, by simp, by simp [Batch.clear], rfl, hclear _⟩
    intro other hne
    simp [hne]
  · refine hstaged.advance hbatch Batch.scheduleInsert rfl rfl rfl (fun _ _ ↦ Iff.rfl)
      (fun _ hne ↦ runningOf_erase rfl hne) ?_
    rcases hstaged.at_of_running hrunning with ⟨hat, heq⟩ | hat
    · have hrun := hat.2.2.2
      rw [← heq] at hrun
      exact ⟨.waiting, hclosed, hat.2.1, rfl, filter_erase_running hrun⟩
    · exact ⟨.gone, hclosed, hat.2.1, by simp [Batch.scheduleInsert], hat.2.2.2.1,
        hschedule hat.2.1 (Bool.eq_false_iff.mpr hlast)⟩

/-- What `stop` makes of a batch object. -/
theorem getElem?_stop {manager : Manager} {batchId : BatchId} {after : Batch}
    (hafter : manager.stop.objects[batchId]? = some after) :
    ∃ batch, manager.objects[batchId]? = some batch ∧
      after = if batchId ∈ manager.batches.values ∨ batchId ∈ manager.pendingBatches then
        batch.clear else batch := by
  rw [Manager.stop, List.getElem?_mapIdx, Option.map_eq_some_iff] at hafter
  obtain ⟨batch, hbatch, rfl⟩ := hafter
  exact ⟨batch, hbatch, rfl⟩

/-- The open batch of a bucket is among the values of `batches`. -/
theorem mem_values_of_get? {manager : Manager} {bucketId : BucketId} {batchId : BatchId}
    (hopen : manager.batches.get? bucketId = some batchId) : batchId ∈ manager.batches.values :=
  List.mem_map.mpr ⟨(bucketId, batchId), OrderedMap.get?_eq_some_iff.mp hopen, rfl⟩

theorem Staged.stop {manager : Manager} (hstaged : Staged ofGone manager)
    (hclear : ∀ batch : Batch, ofGone batch.clear) : Staged ofGone manager.stop where
  stage := by
    intro batchId after hafter
    obtain ⟨batch, hbatch, rfl⟩ := getElem?_stop hafter
    refine ⟨.gone, by simp [Manager.stop], by simp [Manager.stop], ?_⟩
    split_ifs with hmap
    · exact ⟨by simp [Batch.clear], rfl, hclear batch⟩
    · rw [not_or] at hmap
      obtain ⟨stage, hat⟩ := hstaged.stage batchId batch hbatch
      cases stage with
      | opened => exact absurd (mem_values_of_get? hat.1) hmap.1
      | waiting => exact absurd hat.2.1 hmap.2
      | inserting => exact absurd hat.2.1 hmap.2
      | gone => exact hat.2.2
  opened := fun _ _ hopen ↦ nomatch hopen
  blank := by
    intro batchId hnone
    rw [Manager.stop, List.getElem?_mapIdx, Option.map_eq_none_iff] at hnone
    exact ⟨by simp [Manager.stop], (hstaged.blank batchId hnone).2⟩

/-- What an event needs of the objects that are gone to keep the stages. -/
structure KeepsGone (options : Options) (ofGone : Batch → Prop) (manager : Manager)
    (event : Event) : Prop where
  clear : ∀ batch : Batch, ofGone batch.clear
  retry : ∀ batchId batch, event = .insertTimeout batchId →
    manager.objects[batchId]? = some batch → batch.timeout = some .insert → ofGone batch →
      ofGone (batch.retry options)
  schedule : ∀ batchId batch, event = .insertFailed batchId →
    manager.objects[batchId]? = some batch → batchId ∉ manager.pendingBatches →
      batch.reachedMaxRetries options = false → ofGone batch.scheduleInsert

/-- Nothing, when nothing is said of them. -/
theorem keepsGone_true (options : Options) (manager : Manager) (event : Event) :
    KeepsGone options (fun _ ↦ True) manager event :=
  ⟨fun _ ↦ trivial, fun _ _ _ _ _ _ ↦ trivial, fun _ _ _ _ _ _ ↦ trivial⟩

theorem Staged.step {options : Options} {manager after : Manager} {event : Event}
    (hstaged : Staged ofGone manager) (hgone : KeepsGone options ofGone manager event)
    (hstep : step options manager event = some after) : Staged ofGone after := by
  cases outcome_of_step hstep with
  | store bucketId record hasDoneCb => exact hstaged.store bucketId record hasDoneCb
  | lock hbatch htimeout =>
    exact hstaged.lock hbatch (hstaged.at_opened_of_timeout hbatch htimeout)
  | insert hbatch htimeout =>
    exact hstaged.insert hbatch htimeout (hgone.retry _ _ rfl hbatch htimeout)
  | inserted hrunning => exact hstaged.inserted hrunning hgone.clear
  | failed hrunning =>
    exact hstaged.failed hrunning hgone.clear
      (hgone.schedule _ _ rfl (runningInsert_eq_some hrunning).1)
  | stop => exact hstaged.stop hgone.clear

/-! ### Batches in no map -/

/-- A batch object that neither of the maps has. -/
structure Untracked (manager : Manager) (batchId : BatchId) : Prop where
  exists' : batchId < manager.objects.length
  closed : ∀ bucketId, manager.batches.get? bucketId ≠ some batchId
  notPending : batchId ∉ manager.pendingBatches

theorem Untracked.lock {manager : Manager} {batchId other : BatchId} {bucketId : BucketId}
    (huntracked : Untracked manager batchId) (hne : other ≠ batchId) :
    Untracked (manager.lock bucketId other) batchId where
  exists' := by
    rw [Manager.lock, Manager.modify, List.length_modify]
    exact huntracked.exists'
  closed := fun name hopen ↦
    huntracked.closed name (OrderedMap.get?_delete_eq_some_iff.mp hopen).2
  notPending := fun hmem ↦
    (OrderedSet.mem_add.mp hmem).elim (fun heq ↦ hne heq.symm) huntracked.notPending

theorem Untracked.lockIfFull {manager : Manager} {batchId : BatchId}
    (huntracked : Untracked manager batchId) (options : Options) (bucketId : BucketId) :
    Untracked (manager.lockIfFull options bucketId) batchId := by
  unfold Manager.lockIfFull
  split
  · exact huntracked
  · next other hopen =>
    split
    · exact huntracked
    · split
      · exact huntracked.lock fun heq ↦ huntracked.closed bucketId (heq ▸ hopen)
      · exact huntracked

theorem Untracked.ensureBatch {manager : Manager} {batchId : BatchId}
    (huntracked : Untracked manager batchId) (bucketId : BucketId) :
    Untracked (manager.ensureBatch bucketId) batchId := by
  unfold Manager.ensureBatch
  split
  · exact huntracked
  · refine ⟨?_, fun name hopen ↦ ?_, huntracked.notPending⟩
    · rw [List.length_append]
      exact Nat.lt_of_lt_of_le huntracked.exists' (Nat.le_add_right _ _)
    · rcases OrderedMap.get?_set_eq_some_iff.mp hopen with ⟨-, heq⟩ | ⟨-, hbefore⟩
      · exact absurd huntracked.exists' (heq ▸ Nat.lt_irrefl _)
      · exact huntracked.closed name hbefore

theorem Untracked.store {options : Options} {manager : Manager} {batchId : BatchId}
    (huntracked : Untracked manager batchId) (bucketId : BucketId) (record : InsertRecord)
    (hasDoneCb : Bool) : Untracked (manager.store options bucketId record hasDoneCb) batchId := by
  unfold Manager.store
  split_ifs
  · exact huntracked
  · have hopened := (huntracked.lockIfFull options bucketId).ensureBatch bucketId
    unfold Manager.pushRecord
    split
    · exact hopened
    · exact ⟨by simpa [Manager.modify] using hopened.exists', hopened.closed, hopened.notPending⟩

/-- A batch that has left both maps does not come back. -/
theorem Untracked.step {options : Options} {manager after : Manager} {event : Event}
    {batchId : BatchId} (hstaged : Staged ofGone manager) (huntracked : Untracked manager batchId)
    (hstep : step options manager event = some after) : Untracked after batchId := by
  cases outcome_of_step hstep with
  | store bucketId record hasDoneCb => exact huntracked.store bucketId record hasDoneCb
  | lock hbatch htimeout =>
    have hat := hstaged.at_opened_of_timeout hbatch htimeout
    exact huntracked.lock fun heq ↦ huntracked.closed _ (heq ▸ hat.1)
  | insert _ _ =>
    unfold Manager.insert
    split_ifs <;>
      exact ⟨by simpa [Manager.modify] using huntracked.exists', huntracked.closed,
        huntracked.notPending⟩
  | inserted _ =>
    exact ⟨by simpa [Manager.inserted, Manager.modify] using huntracked.exists', huntracked.closed,
      fun hmem ↦ huntracked.notPending (OrderedSet.mem_delete.mp hmem).1⟩
  | failed _ =>
    unfold Manager.failed
    dsimp only
    split_ifs
    · exact ⟨by simpa [Manager.modify] using huntracked.exists', huntracked.closed,
        fun hmem ↦ huntracked.notPending (OrderedSet.mem_delete.mp hmem).1⟩
    · exact ⟨by simpa [Manager.modify] using huntracked.exists', huntracked.closed,
        huntracked.notPending⟩
  | stop =>
    exact ⟨by simpa [Manager.stop] using huntracked.exists', fun _ hopen ↦ (by cases hopen),
      List.not_mem_nil⟩

/-! ### Armed timers and running inserts -/

/-- A batch that neither of the maps has was cleared, and nothing of it is armed. -/
def IsCleared (manager : Manager) (batchId : BatchId) : Prop :=
  batchId ∉ manager.batches.values ∧ batchId ∉ manager.pendingBatches ∧
    ∃ batch, manager.objects[batchId]? = some batch ∧ batch.timeout = none ∧
      batch.records = [] ∧ batch.state = .inserted

/-- A batch is cleared now and stays so, whatever of what is allowed happens. -/
def ClearedForGood (options : Options) (allowed : Manager → Event → Prop) (manager : Manager)
    (batchId : BatchId) : Prop :=
  ∀ after, Transition.Reachable (step options) allowed (· = manager) after → IsCleared after batchId

/-- Every batch with an armed timer or a running insert is in one of the maps or cleared for good,
and `insert` was never entered with the id of a batch that `pendingBatches` does not have. -/
def Tracked (options : Options) (allowed : Manager → Event → Prop) (manager : Manager) : Prop :=
  (∀ batchId batch, manager.objects[batchId]? = some batch →
    batch.timeout ≠ none ∨ runningOf manager batchId ≠ [] →
      batchId ∈ manager.batches.values ∨ batchId ∈ manager.pendingBatches ∨
        ClearedForGood options allowed manager batchId) ∧
  manager.history.absent = []

/-- An insert fails only of a batch that is still pending, or with no retry left. -/
def FailsTracked (options : Options) (manager : Manager) : Event → Bool
  | .insertFailed batchId => manager.objects[batchId]?.all fun batch ↦
      batchId ∈ manager.pendingBatches || batch.reachedMaxRetries options
  | _ => true

/-- What is gone in such a run was cleared and has no timer. -/
def WasCleared (batch : Batch) : Prop := batch.timeout = none ∧ batch.state = .inserted

theorem keepsGone_of_failsTracked {options : Options} {manager : Manager} {event : Event}
    (hfails : FailsTracked options manager event = true) :
    KeepsGone options WasCleared manager event where
  clear := fun _ ↦ ⟨rfl, rfl⟩
  retry := by
    intro batchId batch _ _ htimeout hgone
    exact absurd (hgone.1.symm.trans htimeout) (by simp)
  schedule := by
    rintro batchId batch rfl hbatch hpending hretries
    rw [FailsTracked, hbatch, Option.all_some, Bool.or_eq_true, decide_eq_true_eq, hretries]
      at hfails
    exact absurd hfails (by simp [hpending])

theorem absent_store (options : Options) (manager : Manager) (bucketId : BucketId)
    (record : InsertRecord) (hasDoneCb : Bool) :
    (manager.store options bucketId record hasDoneCb).history.absent = manager.history.absent := by
  unfold Manager.store
  split_ifs
  · rfl
  · unfold Manager.pushRecord
    split
    · rw [history_ensureBatch, history_lockIfFull]
    · dsimp only
      rw [history_ensureBatch, history_lockIfFull]

/-- No insert timer of such a run finds its batch gone. -/
theorem absent_step {options : Options} {manager after : Manager} {event : Event}
    (hstaged : Staged WasCleared manager) (habsent : manager.history.absent = [])
    (hstep : step options manager event = some after) : after.history.absent = [] := by
  cases outcome_of_step hstep with
  | store bucketId record hasDoneCb =>
    rw [← habsent]
    exact absent_store options manager bucketId record hasDoneCb
  | lock _ _ => exact habsent
  | @insert batchId batch hbatch htimeout =>
    have hpending : batchId ∈ manager.pendingBatches := by
      rcases hstaged.at_of_insertTimeout hbatch htimeout with hat | hat
      · exact hat.2.1
      · exact absurd (hat.2.2.2.2.1.symm.trans htimeout) (by simp)
    rw [Manager.insert, if_pos hpending]
    exact habsent
  | inserted _ => exact habsent
  | failed _ =>
    unfold Manager.failed
    dsimp only
    split_ifs <;> exact habsent
  | stop => exact habsent

/-- A batch in no map that is gone was cleared. -/
theorem Staged.isCleared {manager : Manager} (hstaged : Staged WasCleared manager)
    {batchId : BatchId} (huntracked : Untracked manager batchId) : IsCleared manager batchId := by
  obtain ⟨batch, hbatch⟩ : ∃ batch, manager.objects[batchId]? = some batch :=
    ⟨_, List.getElem?_eq_getElem huntracked.exists'⟩
  refine ⟨fun hvalue ↦ ?_, huntracked.notPending, batch, hbatch, ?_⟩
  · obtain ⟨⟨bucketId, _⟩, hentry, rfl⟩ := List.mem_map.mp hvalue
    exact huntracked.closed bucketId (OrderedMap.get?_eq_some_iff.mpr hentry)
  · obtain ⟨stage, hat⟩ := hstaged.stage batchId batch hbatch
    cases stage with
    | opened => exact absurd hat.1 (huntracked.closed _)
    | waiting => exact absurd hat.2.1 huntracked.notPending
    | inserting => exact absurd hat.2.1 huntracked.notPending
    | gone => exact ⟨hat.2.2.2.2.1, hat.2.2.2.1, hat.2.2.2.2.2⟩

/-- A batch in no map stays cleared in every continuation of such a run. -/
theorem Staged.clearedForGood {options : Options} {manager : Manager}
    (hstaged : Staged WasCleared manager) {batchId : BatchId}
    (huntracked : Untracked manager batchId) : ClearedForGood options
      (fun manager event ↦ FailsTracked options manager event = true) manager batchId := by
  intro after hafter
  have hboth : Staged WasCleared after ∧ Untracked after batchId := by
    refine @Transition.Reachable.invariant _ _ _ _ _
      (fun state ↦ Staged WasCleared state ∧ Untracked state batchId) ?_ ?_ _ hafter
    · rintro state rfl
      exact ⟨hstaged, huntracked⟩
    · rintro state event next - ⟨hstate, hout⟩ hfails hstep
      exact ⟨hstate.step (keepsGone_of_failsTracked hfails) hstep, hout.step hstate hstep⟩
  exact hboth.1.isCleared hboth.2

/-- In a run in which an insert fails only of a batch that is still pending or has no retry left,
every batch with an armed timer or a running insert is in one of the maps or cleared for good, and
`insert` is never entered with the id of a batch that is not pending. -/
theorem tracked_of_failsTracked (options : Options) (manager : Manager)
    (hreachable : Transition.Reachable (step options)
      (fun manager event ↦ FailsTracked options manager event = true) (· = initial) manager) :
    Tracked options (fun manager event ↦ FailsTracked options manager event = true) manager := by
  have hboth : Staged WasCleared manager ∧ manager.history.absent = [] := by
    refine @Transition.Reachable.invariant _ _ _ _ _
      (fun state ↦ Staged WasCleared state ∧ state.history.absent = []) ?_ ?_ _ hreachable
    · rintro state rfl
      exact ⟨staged_initial WasCleared, rfl⟩
    · rintro state event next - ⟨hstate, habsent⟩ hfails hstep
      exact ⟨hstate.step (keepsGone_of_failsTracked hfails) hstep,
        absent_step hstate habsent hstep⟩
  obtain ⟨hstaged, habsent⟩ := hboth
  refine ⟨fun batchId batch hbatch _ ↦ ?_, habsent⟩
  by_cases htracked : batchId ∈ manager.batches.values ∨ batchId ∈ manager.pendingBatches
  · exact htracked.imp_right Or.inl
  · rw [not_or] at htracked
    refine Or.inr (Or.inr (hstaged.clearedForGood ⟨?_, fun bucketId hopen ↦ ?_, htracked.2⟩))
    · exact (List.getElem?_eq_some_iff.mp hbatch).1
    · exact htracked.1 (mem_values_of_get? hopen)

/-! ### `stop` during an insert -/

/-- `stop` comes while Cassandra works on the insert of a batch, which succeeds. -/
def stoppedTrace : List Event :=
  [.store "bucket" emptyRecord true, .lockTimeout 0, .insertTimeout 0, .stop, .insertSucceeded 0,
    .store "bucket" emptyRecord true]

/-- `stop` comes while Cassandra works on the insert of a batch, which fails. -/
def rescheduledTrace : List Event :=
  [.store "bucket" emptyRecord true, .lockTimeout 0, .insertTimeout 0, .stop, .insertFailed 0]

theorem tracked_stoppedTrace : ∃ manager,
    Transition.run (step smallOptions) initial stoppedTrace = some manager ∧
      manager.objects.length = 2 ∧ Tracked smallOptions
        (fun manager event ↦ FailsTracked smallOptions manager event = true) manager := by
  refine ⟨_, rfl, by decide +kernel, tracked_of_failsTracked smallOptions _ ?_⟩
  exact .of_checkedRun stoppedTrace (fun _ _ ↦ id) (.start rfl) rfl

/-- After the failure the insert timer of a batch in no map is armed, and when it fires `insert`
reads an id that `pendingBatches` does not have. -/
theorem insert_of_absent_batch : ∃ manager after : Manager,
    Transition.Reachable (step smallOptions) (fun _ _ ↦ True) (· = initial) manager ∧
    (∃ batch, manager.objects[0]? = some batch ∧ batch.timeout = some .insert) ∧
    0 ∉ manager.batches.values ∧ 0 ∉ manager.pendingBatches ∧ ¬ IsCleared manager 0 ∧
    step smallOptions manager (.insertTimeout 0) = some after ∧ after.history.absent = [0] := by
  refine ⟨_, _, .of_run rescheduledTrace (fun _ _ _ ↦ trivial) (.start rfl) rfl,
    ⟨_, rfl, rfl⟩, by decide, by decide, ?_, rfl, rfl⟩
  rintro ⟨-, -, batch, hbatch, htimeout, -⟩
  obtain rfl := Option.some.inj hbatch
  exact absurd htimeout (by decide)

end PomboStorageNode.Storage.BatchManager
