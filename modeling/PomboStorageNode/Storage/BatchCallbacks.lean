import PomboStorageNode.Storage.BatchStages

/-!
# The done callbacks of the records

`Storage.store` hands a done callback over with each record, and its promise settles when the
callback is called. `Batch.done` is the only place that calls callbacks, without an error; a batch
that is dropped after its last retry and a batch that `stop` clears never call theirs, so the
promises of their records stay pending (`callbacks_forgotten`).

In the runs in which an insert with callbacks never fails for the last time, and `stop` finds no
callback in the batches that it clears, a record that has left its batch was written, and its
callback was called once (`callbacks_settle`).
-/

set_option autoImplicit false

namespace PomboStorageNode.Storage.BatchManager

open Library

/-! ### Calls and promises -/

/-- A call of a done callback, with the error it gets. -/
structure Invocation where
  call : ℕ
  err : Option String

/-- The calls of done callbacks so far. `done` calls them with no argument. -/
def invocations (manager : Manager) : List Invocation :=
  manager.history.done.map fun call ↦ ⟨call, none⟩

/-- How a promise ends. -/
inductive Settlement
  | resolved
  | rejected (err : String)

/-- The promise that `Storage.store` returned, once its callback has been called. -/
def settlement (manager : Manager) (call : ℕ) : Option Settlement :=
  ((invocations manager).find? (·.call = call)).map fun invocation ↦
    match invocation.err with
    | some err => .rejected err
    | none => .resolved

/-- The manager, and the calls of `store` that handed a callback over. -/
structure Calls where
  manager : Manager
  awaited : List ℕ

namespace Calls

/-- No call yet. -/
def initial : Calls := ⟨BatchManager.initial, []⟩

/-- The awaited calls after an event. -/
def awaitedAfter (calls : Calls) : Event → List ℕ
  | .store bucketId _ hasDoneCb =>
    if bucketId ≠ "" ∧ hasDoneCb then calls.awaited ++ [calls.manager.history.pushed.length]
    else calls.awaited
  | _ => calls.awaited

/-- One step. -/
def step (options : Options) (calls : Calls) (event : Event) : Option Calls :=
  (BatchManager.step options calls.manager event).map fun after ↦
    ⟨after, calls.awaitedAfter event⟩

end Calls

/-! ### What should hold, and the condition -/

/-- A record is no longer in its batch. -/
def HasLeft (manager : Manager) (push : Push) : Prop :=
  ∀ batch, manager.objects[push.batchId]? = some batch → push.object ∉ batch.records

/-- A Cassandra batch with the record succeeded. -/
def Succeeded (manager : Manager) (push : Push) : Prop :=
  ∃ attempt ∈ manager.history.written, ∃ query ∈ attempt.queries, query.object = push.object

/-- The callback of a record was called once, without an error if and only if a Cassandra batch with
the record succeeded. -/
def Discharged (manager : Manager) (push : Push) : Prop :=
  ∃ invocation, (invocations manager).filter (·.call = push.object.call) = [invocation] ∧
    (invocation.err = none ↔ Succeeded manager push)

/-- No timer is armed and no insert is running. -/
def Idle (manager : Manager) : Prop :=
  (∀ (batchId : BatchId) (batch : Batch), manager.objects[batchId]? = some batch →
    batch.timeout = none) ∧
    manager.inFlight = []

/-- The timers and the ends of inserts. -/
def Event.isCompletion : Event → Bool
  | .lockTimeout _ | .insertTimeout _ | .insertSucceeded _ | .insertFailed _ => true
  | .store _ _ _ | .stop => false

/-- The work that is left in a batch object: its retries and the timer that is armed. -/
def effort (options : Options) (batch : Batch) : ℕ :=
  2 * (options.batchMaxRetries - batch.retries) +
    match batch.timeout with
    | some .lock => 2
    | some .insert => 1
    | none => 0

/-- The work that is left. -/
def work (options : Options) (manager : Manager) : ℕ :=
  2 * manager.inFlight.length + (manager.objects.map (effort options)).sum

/-- The callbacks of the records that have left are discharged; when nothing is left to happen, the
promise of every record handed over has settled; and without further calls nothing is left to
happen after as many timers and ends of inserts as there is work. -/
structure Settles (options : Options) (calls : Calls) : Prop where
  discharged : ∀ push ∈ calls.manager.history.pushed, push.object.call ∈ calls.awaited →
    HasLeft calls.manager push → Discharged calls.manager push
  settled : Idle calls.manager → ∀ push ∈ calls.manager.history.pushed,
    push.object.call ∈ calls.awaited → (settlement calls.manager push.object.call).isSome = true
  ends : ∀ events after, (∀ event ∈ events, event.isCompletion = true) →
    Transition.run (Calls.step options) calls events = some after →
      events.length ≤ work options calls.manager

/-- An insert that fails with no retry left is of a batch without done callbacks, and so is every
batch in the maps when `stop` is called. -/
def LosesNoCallback (options : Options) (calls : Calls) : Event → Bool
  | .insertFailed batchId => calls.manager.objects[batchId]?.all fun batch ↦
      !batch.reachedMaxRetries options || batch.doneCbs.isEmpty
  | .stop => (calls.manager.batches.values ++ calls.manager.pendingBatches.elements).all
      fun batchId ↦ calls.manager.objects[batchId]?.all fun batch ↦ batch.doneCbs.isEmpty
  | _ => true

/-! ### Where a callback is -/

/-- The record is in its batch, and its callback was not called. -/
def Held (manager : Manager) (push : Push) : Prop :=
  ∃ batch, manager.objects[push.batchId]? = some batch ∧ push.object ∈ batch.records ∧
    batch.doneCbs.count push.object.call = 1 ∧ manager.history.done.count push.object.call = 0

/-- The record has left its batch, and its callback was called. -/
structure Done (manager : Manager) (push : Push) : Prop where
  left : HasLeft manager push
  called : manager.history.done.count push.object.call = 1
  succeeded : Succeeded manager push

/-- Every callback is in its batch or was called. -/
structure CallbackInvariant (calls : Calls) : Prop where
  staged : Staged (fun _ ↦ True) calls.manager
  pushed : ∀ push ∈ calls.manager.history.pushed,
    ∃ batch, calls.manager.objects[push.batchId]? = some batch
  numbered : calls.manager.history.pushed.map (·.object.call) =
    List.range calls.manager.history.pushed.length
  place : ∀ push ∈ calls.manager.history.pushed, push.object.call ∈ calls.awaited →
    Held calls.manager push ∨ Done calls.manager push
  owned : ∀ batchId batch, calls.manager.objects[batchId]? = some batch →
    ∀ call ∈ batch.doneCbs, ∃ push ∈ calls.manager.history.pushed, push.batchId = batchId ∧
      push.object.call = call ∧ push.object ∈ batch.records
  doneBefore : ∀ call ∈ calls.manager.history.done, call < calls.manager.history.pushed.length
  awaitedBefore : ∀ call ∈ calls.awaited, call < calls.manager.history.pushed.length

theorem callbackInvariant_initial : CallbackInvariant Calls.initial where
  staged := staged_initial _
  pushed := fun _ hpush ↦ absurd hpush List.not_mem_nil
  numbered := rfl
  place := fun _ hpush ↦ absurd hpush List.not_mem_nil
  owned := fun _ _ hbatch ↦ nomatch hbatch
  doneBefore := fun _ hcall ↦ absurd hcall List.not_mem_nil
  awaitedBefore := fun _ hcall ↦ absurd hcall List.not_mem_nil

namespace CallbackInvariant

variable {calls : Calls}

/-- Two pushes of one call are one push. -/
theorem push_unique (hinv : CallbackInvariant calls) {first second : Push}
    (hfirst : first ∈ calls.manager.history.pushed)
    (hsecond : second ∈ calls.manager.history.pushed)
    (hcall : first.object.call = second.object.call) : first = second := by
  have hnodup : (calls.manager.history.pushed.map (·.object.call)).Nodup := by
    rw [hinv.numbered]
    exact List.nodup_range
  exact List.inj_on_of_nodup_map hnodup hfirst hsecond hcall

theorem call_lt (hinv : CallbackInvariant calls) {push : Push}
    (hpush : push ∈ calls.manager.history.pushed) :
    push.object.call < calls.manager.history.pushed.length := by
  rw [← List.mem_range, ← hinv.numbered]
  exact List.mem_map.mpr ⟨push, hpush, rfl⟩

/-- A callback of a push is in the batch of the push, together with the record. -/
theorem of_mem_doneCbs (hinv : CallbackInvariant calls) {push : Push}
    (hpush : push ∈ calls.manager.history.pushed) {batchId : BatchId} {batch : Batch}
    (hbatch : calls.manager.objects[batchId]? = some batch)
    (hcall : push.object.call ∈ batch.doneCbs) :
    push.batchId = batchId ∧ push.object ∈ batch.records := by
  obtain ⟨owner, howner, hid, hsame, hrecord⟩ := hinv.owned batchId batch hbatch _ hcall
  obtain rfl := hinv.push_unique howner hpush hsame
  exact ⟨hid, hrecord⟩

/-- A batch without records has no callbacks. -/
theorem doneCbs_eq_nil (hinv : CallbackInvariant calls) {batchId : BatchId} {batch : Batch}
    (hbatch : calls.manager.objects[batchId]? = some batch) (hrecords : batch.records = []) :
    batch.doneCbs = [] := by
  refine List.eq_nil_iff_forall_not_mem.mpr fun call hcall ↦ ?_
  obtain ⟨push, -, -, -, hrecord⟩ := hinv.owned batchId batch hbatch call hcall
  exact absurd (hrecords ▸ hrecord) List.not_mem_nil

end CallbackInvariant

/-- A change that pushes nothing and calls no callback, and takes records only from batches without
callbacks. -/
structure KeepsCallbacks (before after : Manager) : Prop where
  kept : ∀ (batchId : BatchId) (batch : Batch), before.objects[batchId]? = some batch →
    ∃ object : Batch, after.objects[batchId]? = some object ∧ object.doneCbs = batch.doneCbs ∧
      (object.records = batch.records ∨ batch.doneCbs = [] ∧ object.records = [])
  fresh : ∀ (batchId : BatchId) (object : Batch), after.objects[batchId]? = some object →
    before.objects[batchId]? = none → object.doneCbs = []
  pushed : after.history.pushed = before.history.pushed
  done : after.history.done = before.history.done
  written : ∀ attempt ∈ before.history.written, attempt ∈ after.history.written

theorem KeepsCallbacks.trans {before middle after : Manager}
    (hfirst : KeepsCallbacks before middle) (hsecond : KeepsCallbacks middle after) :
    KeepsCallbacks before after where
  kept := by
    intro batchId batch hbatch
    obtain ⟨object, hobject, hcbs, hrecords⟩ := hfirst.kept batchId batch hbatch
    obtain ⟨last, hlast, hlastCbs, hlastRecords⟩ := hsecond.kept batchId object hobject
    refine ⟨last, hlast, hlastCbs.trans hcbs, ?_⟩
    rcases hlastRecords with hsame | ⟨hnone, hempty⟩
    · exact hrecords.imp hsame.trans (And.imp_right hsame.trans)
    · exact Or.inr ⟨hcbs ▸ hnone, hempty⟩
  fresh := by
    intro batchId last hlast hnone
    cases hmiddle : middle.objects[batchId]? with
    | none => exact hsecond.fresh batchId last hlast hmiddle
    | some object =>
      obtain ⟨kept, hkept, hcbs, -⟩ := hsecond.kept batchId object hmiddle
      obtain rfl : kept = last := Option.some.inj (hkept.symm.trans hlast)
      exact hcbs.trans (hfirst.fresh batchId object hmiddle hnone)
  pushed := hsecond.pushed.trans hfirst.pushed
  done := hsecond.done.trans hfirst.done
  written := fun attempt hmem ↦ hsecond.written attempt (hfirst.written attempt hmem)

theorem KeepsCallbacks.refl (manager : Manager) : KeepsCallbacks manager manager where
  kept := fun _ batch hbatch ↦ ⟨batch, hbatch, rfl, Or.inl rfl⟩
  fresh := fun _ _ hsome hnone ↦ nomatch hnone.symm.trans hsome
  pushed := rfl
  done := rfl
  written := fun _ ↦ id

/-- A change of one object that keeps its callbacks, and its records unless it has none. -/
theorem keepsCallbacks_of_modify {before after : Manager} (batchId : BatchId)
    (change : Batch → Batch) (hobjects : after.objects = before.objects.modify batchId change)
    (hchange : ∀ batch, before.objects[batchId]? = some batch →
      (change batch).doneCbs = batch.doneCbs ∧
        ((change batch).records = batch.records ∨ batch.doneCbs = [] ∧ (change batch).records = []))
    (hpushed : after.history.pushed = before.history.pushed)
    (hdone : after.history.done = before.history.done)
    (hwritten : ∀ attempt ∈ before.history.written, attempt ∈ after.history.written) :
    KeepsCallbacks before after where
  kept := by
    intro other batch hbatch
    by_cases heq : other = batchId
    · subst heq
      exact ⟨change batch, by simp [hobjects, hbatch], hchange batch hbatch⟩
    · exact ⟨batch, by simp [hobjects, Ne.symm heq, hbatch], rfl, Or.inl rfl⟩
  fresh := by
    intro other object hobject hnone
    rw [hobjects, List.getElem?_modify, hnone] at hobject
    exact nomatch hobject
  pushed := hpushed
  done := hdone
  written := hwritten

/-- Such a change keeps the invariant. -/
theorem CallbackInvariant.of_keeps {calls : Calls} (hinv : CallbackInvariant calls)
    {after : Manager} (hkeeps : KeepsCallbacks calls.manager after)
    (hstaged : Staged (fun _ ↦ True) after) : CallbackInvariant ⟨after, calls.awaited⟩ where
  staged := hstaged
  pushed := by
    intro push hpush
    rw [hkeeps.pushed] at hpush
    obtain ⟨batch, hbatch⟩ := hinv.pushed push hpush
    obtain ⟨object, hobject, -⟩ := hkeeps.kept _ batch hbatch
    exact ⟨object, hobject⟩
  numbered := by
    rw [hkeeps.pushed]
    exact hinv.numbered
  place := by
    intro push hpush hawaited
    rw [hkeeps.pushed] at hpush
    rcases hinv.place push hpush hawaited with ⟨batch, hbatch, hrecord, hone, hzero⟩ | hdone
    · obtain ⟨object, hobject, hcbs, hrecords⟩ := hkeeps.kept _ batch hbatch
      refine Or.inl ⟨object, hobject, ?_, hcbs ▸ hone, hkeeps.done ▸ hzero⟩
      rcases hrecords with hsame | ⟨hnone, -⟩
      · exact hsame ▸ hrecord
      · rw [hnone] at hone
        exact absurd hone (by simp)
    · refine Or.inr ⟨fun object hobject hrecord ↦ ?_, hkeeps.done ▸ hdone.called, ?_⟩
      · obtain ⟨batch, hbatch⟩ := hinv.pushed push hpush
        obtain ⟨kept, hkept, -, hrecords⟩ := hkeeps.kept _ batch hbatch
        obtain rfl : kept = object := Option.some.inj (hkept.symm.trans hobject)
        rcases hrecords with hsame | ⟨-, hempty⟩
        · exact hdone.left batch hbatch (hsame ▸ hrecord)
        · exact absurd (hempty ▸ hrecord) List.not_mem_nil
      · obtain ⟨attempt, hattempt, hquery⟩ := hdone.succeeded
        exact ⟨attempt, hkeeps.written attempt hattempt, hquery⟩
  owned := by
    intro batchId object hobject call hcall
    cases hbatch : calls.manager.objects[batchId]? with
    | none =>
      rw [hkeeps.fresh batchId object hobject hbatch] at hcall
      exact absurd hcall List.not_mem_nil
    | some batch =>
      obtain ⟨kept, hkept, hcbs, hrecords⟩ := hkeeps.kept _ batch hbatch
      obtain rfl : kept = object := Option.some.inj (hkept.symm.trans hobject)
      rw [hcbs] at hcall
      obtain ⟨push, hpush, hid, hsame, hrecord⟩ := hinv.owned batchId batch hbatch call hcall
      refine ⟨push, hkeeps.pushed ▸ hpush, hid, hsame, ?_⟩
      rcases hrecords with heq | ⟨hnone, -⟩
      · exact heq ▸ hrecord
      · exact absurd (hnone ▸ hcall) List.not_mem_nil
  doneBefore := by
    rw [hkeeps.pushed, hkeeps.done]
    exact hinv.doneBefore
  awaitedBefore := by
    rw [hkeeps.pushed]
    exact hinv.awaitedBefore

/-! ### The operations -/

theorem keepsCallbacks_lock (manager : Manager) (bucketId : BucketId) (batchId : BatchId) :
    KeepsCallbacks manager (manager.lock bucketId batchId) :=
  keepsCallbacks_of_modify batchId Batch.lock rfl
    (fun _ _ ↦ ⟨rfl, Or.inl rfl⟩) rfl rfl fun _ ↦ id

theorem keepsCallbacks_lockIfFull (options : Options) (manager : Manager) (bucketId : BucketId) :
    KeepsCallbacks manager (manager.lockIfFull options bucketId) := by
  unfold Manager.lockIfFull
  split
  · exact .refl manager
  · split
    · exact .refl manager
    · split
      · exact keepsCallbacks_lock manager bucketId _
      · exact .refl manager

theorem keepsCallbacks_ensureBatch (manager : Manager) (bucketId : BucketId) :
    KeepsCallbacks manager (manager.ensureBatch bucketId) := by
  unfold Manager.ensureBatch
  split
  · exact .refl manager
  · refine ⟨fun batchId batch hbatch ↦ ⟨batch, ?_, rfl, Or.inl rfl⟩, fun batchId object hobject
      hnone ↦ ?_, rfl, rfl, fun _ ↦ id⟩
    · rw [List.getElem?_append_left (List.getElem?_eq_some_iff.mp hbatch).1]
      exact hbatch
    · by_cases hnew : batchId = manager.objects.length
      · subst hnew
        rw [List.getElem?_concat_length] at hobject
        exact Option.some.inj hobject ▸ rfl
      · rw [getElem?_append_of_ne hnew, hnone] at hobject
        exact nomatch hobject

theorem keepsCallbacks_insert (options : Options) (manager : Manager) (batchId : BatchId)
    (batch : Batch) : KeepsCallbacks manager (manager.insert options batchId batch) := by
  unfold Manager.insert
  dsimp only
  split_ifs <;>
    exact keepsCallbacks_of_modify batchId (Batch.retry options) rfl
      (fun _ _ ↦ ⟨rfl, Or.inl rfl⟩) rfl rfl fun _ ↦ id

/-- A failed insert keeps the callbacks, unless it drops some. -/
theorem keepsCallbacks_failed {options : Options} {manager : Manager} {attempt : Attempt}
    {batch : Batch} (hbatch : manager.objects[attempt.batchId]? = some batch)
    (hloses : batch.reachedMaxRetries options = true → batch.doneCbs = []) :
    KeepsCallbacks manager (manager.failed options attempt batch) := by
  unfold Manager.failed
  dsimp only
  split_ifs with hlast
  · refine keepsCallbacks_of_modify attempt.batchId Batch.clear rfl
      (fun other hother ↦ ⟨rfl, Or.inr ⟨?_, rfl⟩⟩) rfl rfl fun _ ↦ id
    obtain rfl : other = batch := Option.some.inj (hother.symm.trans hbatch)
    exact hloses hlast
  · exact keepsCallbacks_of_modify attempt.batchId Batch.scheduleInsert rfl
      (fun _ _ ↦ ⟨rfl, Or.inl rfl⟩) rfl rfl fun _ ↦ id

/-- `stop` keeps the callbacks when the batches that it clears have none. -/
theorem keepsCallbacks_stop {manager : Manager}
    (hloses : ∀ batchId batch, manager.objects[batchId]? = some batch →
      batchId ∈ manager.batches.values ∨ batchId ∈ manager.pendingBatches → batch.doneCbs = []) :
    KeepsCallbacks manager manager.stop := by
  refine ⟨fun batchId batch hbatch ↦ ⟨if batchId ∈ manager.batches.values ∨
    batchId ∈ manager.pendingBatches then batch.clear else batch, ?_, ?_⟩,
    fun batchId object hobject hnone ↦ ?_, rfl, rfl, fun _ ↦ id⟩
  · rw [Manager.stop, List.getElem?_mapIdx, hbatch]
    rfl
  · split_ifs with hmap
    · exact ⟨rfl, Or.inr ⟨hloses batchId batch hbatch hmap, rfl⟩⟩
    · exact ⟨rfl, Or.inl rfl⟩
  · obtain ⟨batch, hbatch, -⟩ := getElem?_stop hobject
    cases hnone.symm.trans hbatch

/-- The insert of a batch that is gone calls no callback. -/
theorem keepsCallbacks_inserted {manager : Manager} {attempt : Attempt} {batch : Batch}
    (hbatch : manager.objects[attempt.batchId]? = some batch) (hnone : batch.doneCbs = []) :
    KeepsCallbacks manager (manager.inserted attempt batch) := by
  refine keepsCallbacks_of_modify attempt.batchId
    (fun batch ↦ ({ batch with doneCbs := [] } : Batch).clear) rfl
    (fun other hother ↦ ?_) rfl ?_ fun _ ↦ List.mem_append_left _
  · obtain rfl : other = batch := Option.some.inj (hother.symm.trans hbatch)
    exact ⟨hnone.symm, Or.inr ⟨hnone, rfl⟩⟩
  · simp [Manager.inserted, hnone]

theorem getElem?_inserted_self {manager : Manager} {batchId : BatchId} {batch : Batch}
    (queries : List Query) (hbatch : manager.objects[batchId]? = some batch) :
    (manager.inserted ⟨batchId, queries⟩ batch).objects[batchId]? =
      some ({ batch with doneCbs := [] } : Batch).clear := by
  simp [Manager.inserted, Manager.modify, hbatch]

theorem getElem?_inserted_of_ne {manager : Manager} {attempt : Attempt} {batch : Batch}
    {other : BatchId} (hne : other ≠ attempt.batchId) :
    (manager.inserted attempt batch).objects[other]? = manager.objects[other]? := by
  simp [Manager.inserted, Manager.modify, Ne.symm hne]

theorem mem_doneCbs_push {batch : Batch} {object : RecordObject} {hasDoneCb : Bool} {call : ℕ}
    (hcall : call ∈ (batch.push object hasDoneCb).doneCbs) :
    call ∈ batch.doneCbs ∨ call = object.call := by
  rw [Batch.push] at hcall
  split_ifs at hcall
  · exact (List.mem_append.mp hcall).imp_right List.mem_singleton.mp
  · exact Or.inl hcall

theorem count_doneCbs_push_of_ne (batch : Batch) {object : RecordObject} (hasDoneCb : Bool)
    {call : ℕ} (hne : call ≠ object.call) :
    (batch.push object hasDoneCb).doneCbs.count call = batch.doneCbs.count call := by
  rw [Batch.push]
  split_ifs
  · rw [List.count_append, List.count_singleton, if_neg (by simpa using Ne.symm hne), Nat.add_zero]
  · rfl

/-- A callback stays where it is when one batch changes, if the record of the call stays in the
batch or out of it, and no callback of the call comes or goes. -/
theorem place_of_modify {before after : Manager} {batchId : BatchId} {change : Batch → Batch}
    {push : Push} (hobjects : after.objects = before.objects.modify batchId change)
    (hrecords : ∀ batch : Batch,
      push.object ∈ (change batch).records ↔ push.object ∈ batch.records)
    (hcount : ∀ batch : Batch,
      (change batch).doneCbs.count push.object.call = batch.doneCbs.count push.object.call)
    (hdone : after.history.done = before.history.done)
    (hwritten : after.history.written = before.history.written)
    (hplace : Held before push ∨ Done before push) : Held after push ∨ Done after push := by
  have hself : push.batchId = batchId →
      after.objects[push.batchId]? = (before.objects[push.batchId]?).map change := fun hid ↦ by
    simp [hobjects, hid]
  have hother : push.batchId ≠ batchId →
      after.objects[push.batchId]? = before.objects[push.batchId]? := fun hid ↦ by
    simp [hobjects, Ne.symm hid]
  rcases hplace with ⟨batch, hbatch, hrecord, hone, hzero⟩ | hplaced
  · left
    by_cases hid : push.batchId = batchId
    · refine ⟨change batch, ?_, (hrecords batch).mpr hrecord, (hcount batch).trans hone,
        hdone ▸ hzero⟩
      rw [hself hid, hbatch, Option.map_some]
    · exact ⟨batch, (hother hid).trans hbatch, hrecord, hone, hdone ▸ hzero⟩
  · refine Or.inr ⟨fun object hobject hrecord ↦ ?_, hdone ▸ hplaced.called, ?_⟩
    · by_cases hid : push.batchId = batchId
      · rw [hself hid, Option.map_eq_some_iff] at hobject
        obtain ⟨batch, hbatch, rfl⟩ := hobject
        exact hplaced.left batch hbatch ((hrecords batch).mp hrecord)
      · exact hplaced.left object ((hother hid).symm.trans hobject) hrecord
    · rw [Succeeded, hwritten]
      exact hplaced.succeeded

namespace CallbackInvariant

/-- A record and its callback go into the open batch. -/
theorem pushRecord {calls : Calls} (hinv : CallbackInvariant calls) {bucketId : BucketId}
    {batchId : BatchId} (hopen : calls.manager.batches.get? bucketId = some batchId)
    (record : InsertRecord) (hasDoneCb : Bool) :
    CallbackInvariant ⟨calls.manager.pushRecord bucketId record hasDoneCb,
      if hasDoneCb then calls.awaited ++ [calls.manager.history.pushed.length]
      else calls.awaited⟩ := by
  have hstaged := hinv.staged.pushRecord bucketId record hasDoneCb
  obtain ⟨batch, hbatch, -⟩ := hinv.staged.opened bucketId batchId hopen
  unfold Manager.pushRecord at hstaged ⊢
  rw [hopen] at hstaged ⊢
  dsimp only at hstaged ⊢
  set object : RecordObject := ⟨calls.manager.history.pushed.length, record⟩ with hobject
  have hself : (calls.manager.objects.modify batchId
      fun batch ↦ batch.push object hasDoneCb)[batchId]? = some (batch.push object hasDoneCb) := by
    simp [hbatch]
  have hother : ∀ other, other ≠ batchId → (calls.manager.objects.modify batchId
      fun batch ↦ batch.push object hasDoneCb)[other]? = calls.manager.objects[other]? :=
    fun other hne ↦ by simp [Ne.symm hne]
  have hawaited : ∀ call, call ∈ (if hasDoneCb then
      calls.awaited ++ [calls.manager.history.pushed.length] else calls.awaited) →
        call ∈ calls.awaited ∨ (call = object.call ∧ hasDoneCb = true) := fun call hcall ↦ by
    split_ifs at hcall with hcb
    · exact (List.mem_append.mp hcall).imp_right fun hlast ↦ ⟨List.mem_singleton.mp hlast, hcb⟩
    · exact Or.inl hcall
  refine ⟨hstaged, fun push hpush ↦ ?_, ?_, fun push hpush hcall ↦ ?_,
    fun id after hafter call hcall ↦ ?_, fun call hcall ↦ ?_, fun call hcall ↦ ?_⟩
  · by_cases hid : push.batchId = batchId
    · rw [hid]
      exact ⟨_, hself⟩
    · rcases List.mem_append.mp hpush with hold | hlast
      · obtain ⟨found, hfound⟩ := hinv.pushed push hold
        exact ⟨found, (hother _ hid).trans hfound⟩
      · rw [List.mem_singleton.mp hlast] at hid
        exact absurd rfl hid
  · simp [hinv.numbered, List.range_succ, object]
  · rcases List.mem_append.mp hpush with hold | hlast
    · have hne : push.object.call ≠ object.call := Nat.ne_of_lt (hinv.call_lt hold)
      have hbefore := (hawaited _ hcall).resolve_right fun hthis ↦ hne hthis.1
      refine place_of_modify rfl (fun batch ↦ ?_)
        (fun batch ↦ count_doneCbs_push_of_ne batch hasDoneCb hne) rfl rfl
        (hinv.place push hold hbefore)
      refine List.mem_append.trans (or_iff_left fun hlast ↦ ?_)
      exact hne (congrArg RecordObject.call (List.mem_singleton.mp hlast))
    · obtain rfl := List.mem_singleton.mp hlast
      rcases hawaited _ hcall with hbefore | ⟨-, hcb⟩
      · exact absurd (hinv.awaitedBefore _ hbefore) (Nat.lt_irrefl _)
      · -- the call is new to the batch and to the callbacks called so far
        have hnew : object.call ∉ batch.doneCbs := fun hcall ↦ by
          obtain ⟨push, hpush, -, hsame, -⟩ := hinv.owned batchId batch hbatch _ hcall
          exact absurd (hinv.call_lt hpush) (hsame ▸ Nat.lt_irrefl _)
        have hundone : object.call ∉ calls.manager.history.done := fun hcall ↦
          absurd (hinv.doneBefore _ hcall) (Nat.lt_irrefl _)
        refine Or.inl ⟨_, hself, List.mem_append_right _ (List.mem_singleton_self _), ?_,
          List.count_eq_zero.mpr hundone⟩
        simp [Batch.push, hcb, List.count_append, List.count_eq_zero.mpr hnew]
  · by_cases hid : id = batchId
    · subst hid
      obtain rfl := Option.some.inj (hself.symm.trans hafter)
      rcases mem_doneCbs_push hcall with hin | rfl
      · obtain ⟨push, hpush, hsame, hpushed, hrecord⟩ := hinv.owned id batch hbatch call hin
        exact ⟨push, List.mem_append_left _ hpush, hsame, hpushed, List.mem_append_left _ hrecord⟩
      · exact ⟨_, List.mem_append_right _ (List.mem_singleton_self _), rfl, rfl,
          List.mem_append_right _ (List.mem_singleton_self _)⟩
    · obtain ⟨push, hpush, hrest⟩ :=
        hinv.owned id after ((hother _ hid).symm.trans hafter) call hcall
      exact ⟨push, List.mem_append_left _ hpush, hrest⟩
  · rw [List.length_append]
    exact Nat.lt_succ_of_lt (hinv.doneBefore call hcall)
  · rw [List.length_append]
    rcases hawaited call hcall with hbefore | ⟨rfl, -⟩
    · exact Nat.lt_succ_of_lt (hinv.awaitedBefore call hbefore)
    · exact Nat.lt_succ_self _

/-- When the insert of a batch succeeds, the callbacks of the batch are called, and its records were
in the queries. All other callbacks stay where they are. -/
theorem place_inserted {calls : Calls} (hinv : CallbackInvariant calls) {batchId : BatchId}
    {batch : Batch} (hbatch : calls.manager.objects[batchId]? = some batch) {push : Push}
    (hpush : push ∈ calls.manager.history.pushed) (hcall : push.object.call ∈ calls.awaited) :
    Held (calls.manager.inserted ⟨batchId, Manager.queries batch⟩ batch) push ∨
      Done (calls.manager.inserted ⟨batchId, Manager.queries batch⟩ batch) push := by
  have hself := getElem?_inserted_self (Manager.queries batch) hbatch
  have hother : ∀ {id}, id ≠ batchId → (calls.manager.inserted ⟨batchId, Manager.queries batch⟩
      batch).objects[id]? = calls.manager.objects[id]? :=
    fun hne ↦ getElem?_inserted_of_ne hne
  have hcount : (calls.manager.inserted ⟨batchId, Manager.queries batch⟩ batch).history.done.count
      push.object.call = calls.manager.history.done.count push.object.call +
        batch.doneCbs.count push.object.call := List.count_append
  have hleft : push.batchId = batchId →
      HasLeft (calls.manager.inserted ⟨batchId, Manager.queries batch⟩ batch) push := by
    rintro hid after hafter
    rw [hid] at hafter
    obtain rfl := Option.some.inj (hself.symm.trans hafter)
    exact List.not_mem_nil
  rcases hinv.place push hpush hcall with ⟨found, hfound, hrecord, hone, hzero⟩ | hdone
  · by_cases hid : push.batchId = batchId
    · rw [hid] at hfound
      obtain rfl : found = batch := Option.some.inj (hfound.symm.trans hbatch)
      exact Or.inr ⟨hleft hid, by rw [hcount, hzero, hone],
        ⟨_, List.mem_append_right _ (List.mem_singleton_self _), ⟨push.object, found.bucketId⟩,
          List.mem_map.mpr ⟨push.object, hrecord, rfl⟩, rfl⟩⟩
    · have hnot : push.object.call ∉ batch.doneCbs := fun hmem ↦
        hid (hinv.of_mem_doneCbs hpush hbatch hmem).1
      exact Or.inl ⟨found, (hother hid).trans hfound, hrecord, hone,
        by rw [hcount, hzero, List.count_eq_zero.mpr hnot]⟩
  · have hnot : push.object.call ∉ batch.doneCbs := fun hmem ↦ by
      obtain ⟨hid, hrecord⟩ := hinv.of_mem_doneCbs hpush hbatch hmem
      exact hdone.left batch (hid ▸ hbatch) hrecord
    obtain ⟨attempt, hattempt, hquery⟩ := hdone.succeeded
    refine Or.inr ⟨?_, by rw [hcount, hdone.called, List.count_eq_zero.mpr hnot],
      attempt, List.mem_append_left _ hattempt, hquery⟩
    by_cases hid : push.batchId = batchId
    · exact hleft hid
    · exact fun after hafter ↦ hdone.left after ((hother hid).symm.trans hafter)

/-- The success of an insert keeps the invariant. -/
theorem inserted {calls : Calls} (hinv : CallbackInvariant calls) {batchId : BatchId}
    {batch : Batch}
    (hrunning : runningInsert calls.manager batchId =
      some (⟨batchId, Manager.queries batch⟩, batch)) :
    CallbackInvariant ⟨calls.manager.inserted ⟨batchId, Manager.queries batch⟩ batch,
      calls.awaited⟩ := by
  obtain ⟨hbatch, -, -⟩ := runningInsert_eq_some hrunning
  have hself := getElem?_inserted_self (Manager.queries batch) hbatch
  have hother : ∀ {id}, id ≠ batchId → (calls.manager.inserted ⟨batchId, Manager.queries batch⟩
      batch).objects[id]? = calls.manager.objects[id]? :=
    fun hne ↦ getElem?_inserted_of_ne hne
  refine ⟨hinv.staged.inserted hrunning fun _ ↦ trivial, fun push hpush ↦ ?_, hinv.numbered,
    fun push hpush hcall ↦ hinv.place_inserted hbatch hpush hcall,
    fun id after hafter call hcall ↦ ?_, fun call hcall ↦ ?_, hinv.awaitedBefore⟩
  · obtain ⟨found, hfound⟩ := hinv.pushed push hpush
    by_cases hid : push.batchId = batchId
    · rw [hid]
      exact ⟨_, hself⟩
    · exact ⟨found, (hother hid).trans hfound⟩
  · by_cases hid : id = batchId
    · subst hid
      obtain rfl := Option.some.inj (hself.symm.trans hafter)
      exact absurd hcall List.not_mem_nil
    · exact hinv.owned id after ((hother hid).symm.trans hafter) call hcall
  · rcases List.mem_append.mp hcall with hbefore | hnow
    · exact hinv.doneBefore call hbefore
    · obtain ⟨push, hpush, -, rfl, -⟩ := hinv.owned batchId batch hbatch call hnow
      exact hinv.call_lt hpush

/-- A step that loses no callback keeps the invariant. -/
theorem step {options : Options} {calls after : Calls} {event : Event}
    (hinv : CallbackInvariant calls) (hloses : LosesNoCallback options calls event = true)
    (hstep : Calls.step options calls event = some after) : CallbackInvariant after := by
  obtain ⟨manager, hmanager, rfl⟩ := Option.map_eq_some_iff.mp hstep
  have hstaged := hinv.staged.step (keepsGone_true options calls.manager event) hmanager
  cases outcome_of_step hmanager with
  | store bucketId record hasDoneCb =>
    unfold Manager.store Calls.awaitedAfter
    dsimp only
    by_cases hempty : bucketId = ""
    · rw [if_pos hempty, if_neg fun hboth ↦ hboth.1 hempty]
      exact hinv
    · rw [if_neg hempty]
      set middle := (calls.manager.lockIfFull options bucketId).ensureBatch bucketId with hmiddle
      have hkeeps : KeepsCallbacks calls.manager middle :=
        (keepsCallbacks_lockIfFull options calls.manager bucketId).trans
          (keepsCallbacks_ensureBatch _ bucketId)
      obtain ⟨batchId, hopen⟩ :=
        exists_open_ensureBatch (calls.manager.lockIfFull options bucketId) bucketId
      have hpushed := (hinv.of_keeps hkeeps
        ((hinv.staged.lockIfFull bucketId).ensureBatch bucketId)).pushRecord hopen record hasDoneCb
      rw [hkeeps.pushed] at hpushed
      simpa [hempty] using hpushed
  | lock _ _ => exact hinv.of_keeps (keepsCallbacks_lock _ _ _) hstaged
  | insert _ _ => exact hinv.of_keeps (keepsCallbacks_insert _ _ _ _) hstaged
  | @inserted batchId attempt batch hrunning =>
    obtain ⟨hbatch, hid, -⟩ := runningInsert_eq_some hrunning
    rcases hinv.staged.at_of_running hrunning with ⟨-, rfl⟩ | hat
    · exact hinv.inserted hrunning
    · subst hid
      exact hinv.of_keeps (keepsCallbacks_inserted hbatch
        (hinv.doneCbs_eq_nil hbatch hat.2.2.2.1)) hstaged
  | @failed batchId attempt batch hrunning =>
    obtain ⟨hbatch, hid, -⟩ := runningInsert_eq_some hrunning
    subst hid
    refine hinv.of_keeps (keepsCallbacks_failed hbatch fun hlast ↦ ?_) hstaged
    rw [LosesNoCallback, hbatch, Option.all_some, hlast] at hloses
    simpa using hloses
  | stop =>
    refine hinv.of_keeps (keepsCallbacks_stop fun batchId batch hbatch hmap ↦ ?_) hstaged
    have hbatches := List.all_eq_true.mp hloses batchId (List.mem_append.mpr hmap)
    rw [hbatch, Option.all_some, List.isEmpty_iff] at hbatches
    exact hbatches

end CallbackInvariant

/-! ### Progress -/

/-- The retries of a batch stay within the limit, and one is left while a timer is armed. -/
def Within (options : Options) (batch : Batch) : Prop :=
  batch.retries ≤ options.batchMaxRetries ∧
    (batch.timeout ≠ none → batch.retries < options.batchMaxRetries)

/-- So do those of all batches. -/
def AllWithin (options : Options) (manager : Manager) : Prop :=
  ∀ batch ∈ manager.objects, Within options batch

theorem Within.lock {options : Options} {batch : Batch} (htimeout : batch.timeout ≠ none)
    (hwithin : Within options batch) : Within options batch.lock :=
  ⟨hwithin.1, fun _ ↦ hwithin.2 htimeout⟩

theorem Within.retry {options : Options} {batch : Batch} (hwithin : Within options batch) :
    Within options (batch.retry options) := by
  refine ⟨?_, fun hnone ↦ absurd rfl hnone⟩
  rw [Batch.retry]
  split_ifs with hleft
  · exact hleft
  · exact hwithin.1

theorem Within.clear {options : Options} {batch : Batch} (hwithin : Within options batch) :
    Within options batch.clear := ⟨hwithin.1, fun hnone ↦ absurd rfl hnone⟩

theorem Within.scheduleInsert {options : Options} {batch : Batch} (hwithin : Within options batch)
    (hleft : batch.reachedMaxRetries options ≠ true) : Within options batch.scheduleInsert := by
  refine ⟨hwithin.1, fun _ ↦ Nat.lt_of_le_of_ne hwithin.1 fun heq ↦ hleft ?_⟩
  rw [Batch.reachedMaxRetries, decide_eq_true_eq]
  exact heq

/-- A change of one object that stays within the limit. -/
theorem AllWithin.modify {options : Options} {manager : Manager}
    (hwithin : AllWithin options manager) {batchId : BatchId} {change : Batch → Batch}
    (hchange : ∀ batch, manager.objects[batchId]? = some batch → Within options batch →
      Within options (change batch)) :
    ∀ batch ∈ manager.objects.modify batchId change, Within options batch := by
  intro after hafter
  obtain ⟨other, hother⟩ := List.mem_iff_getElem?.mp hafter
  rw [List.getElem?_modify, Option.map_eq_map, Option.map_eq_some_iff] at hother
  obtain ⟨batch, hbatch, rfl⟩ := hother
  have hbefore := hwithin batch (List.mem_of_getElem? hbatch)
  split_ifs with heq
  · subst heq
    exact hchange batch hbatch hbefore
  · exact hbefore

theorem AllWithin.store {options : Options} {ofGone : Batch → Prop} {manager : Manager}
    (hstaged : Staged ofGone manager) (hwithin : AllWithin options manager)
    (bucketId : BucketId) (record : InsertRecord) (hasDoneCb : Bool) :
    AllWithin options (manager.store options bucketId record hasDoneCb) := by
  unfold Manager.store
  split_ifs
  · exact hwithin
  · have hlocked : AllWithin options (manager.lockIfFull options bucketId) := by
      rcases hstaged.lockIfFull_cases options bucketId with
        hsame | ⟨batchId, batch, hbatch, hat, hlock⟩
      · rw [hsame]
        exact hwithin
      · rw [hlock]
        refine hwithin.modify fun other hother hbefore ↦ hbefore.lock ?_
        obtain rfl : other = batch := Option.some.inj (hother.symm.trans hbatch)
        simp [hat.2.2.1]
    have hensured : AllWithin options
        ((manager.lockIfFull options bucketId).ensureBatch bucketId) := by
      unfold Manager.ensureBatch
      split
      · exact hlocked
      · intro batch hmem
        rcases List.mem_append.mp hmem with hbefore | hnew
        · exact hlocked batch hbefore
        · rw [List.mem_singleton.mp hnew]
          exact ⟨Nat.zero_le _, fun _ ↦ options.batchMaxRetries_pos⟩
    unfold Manager.pushRecord
    split
    · exact hensured
    · exact hensured.modify fun _ _ hbefore ↦ hbefore

theorem AllWithin.step {options : Options} {ofGone : Batch → Prop} {manager after : Manager}
    {event : Event} (hstaged : Staged ofGone manager) (hwithin : AllWithin options manager)
    (hstep : BatchManager.step options manager event = some after) : AllWithin options after := by
  cases outcome_of_step hstep with
  | store bucketId record hasDoneCb => exact hwithin.store hstaged bucketId record hasDoneCb
  | @lock batchId batch hbatch htimeout =>
    refine hwithin.modify fun other hother hbefore ↦ hbefore.lock ?_
    obtain rfl : other = batch := Option.some.inj (hother.symm.trans hbatch)
    simp [htimeout]
  | insert _ _ =>
    unfold Manager.insert
    dsimp only
    split_ifs <;> exact hwithin.modify fun _ _ hbefore ↦ hbefore.retry
  | inserted _ => exact hwithin.modify fun _ _ hbefore ↦ ⟨hbefore.1, fun hnone ↦ absurd rfl hnone⟩
  | @failed batchId attempt batch hrunning =>
    obtain ⟨hbatch, hid, -⟩ := runningInsert_eq_some hrunning
    unfold Manager.failed
    dsimp only
    split_ifs with hlast
    · exact hwithin.modify fun _ _ hbefore ↦ hbefore.clear
    · refine hwithin.modify fun other hother hbefore ↦ hbefore.scheduleInsert ?_
      rw [hid] at hother
      obtain rfl : other = batch := Option.some.inj (hother.symm.trans hbatch)
      exact hlast
  | stop =>
    intro other hmem
    obtain ⟨batchId, hother⟩ := List.mem_iff_getElem?.mp hmem
    obtain ⟨batch, hbatch, rfl⟩ := getElem?_stop hother
    have hbefore := hwithin batch (List.mem_of_getElem? hbatch)
    split_ifs
    · exact hbefore.clear
    · exact hbefore

theorem sum_map_modify (objects : List Batch) (change : Batch → Batch) (measure : Batch → ℕ)
    {batchId : BatchId} {batch : Batch} (hbatch : objects[batchId]? = some batch) :
    ((objects.modify batchId change).map measure).sum + measure batch =
      (objects.map measure).sum + measure (change batch) := by
  induction objects generalizing batchId with
  | nil => exact nomatch hbatch
  | cons first objects ih =>
    cases batchId with
    | zero =>
      obtain rfl : first = batch := Option.some.inj hbatch
      simp only [List.modify_zero_cons, List.map_cons, List.sum_cons]
      omega
    | succ index =>
      have hfound : objects[index]? = some batch := hbatch
      have hrest := ih hfound
      simp only [List.modify_succ_cons, List.map_cons, List.sum_cons]
      omega

/-- A change of one object leaves less work when it takes away more than it adds, with two for every
insert that runs. -/
theorem work_lt_of_modify {options : Options} {before after : Manager} {batchId : BatchId}
    {batch : Batch} {change : Batch → Batch} (hbatch : before.objects[batchId]? = some batch)
    (hobjects : after.objects = before.objects.modify batchId change)
    (hless : 2 * after.inFlight.length + effort options (change batch) <
      2 * before.inFlight.length + effort options batch) :
    work options after < work options before := by
  have hsum := sum_map_modify before.objects change (effort options) hbatch
  unfold work
  rw [hobjects]
  omega

theorem objects_insert (options : Options) (manager : Manager) (batchId : BatchId) (batch : Batch) :
    (manager.insert options batchId batch).objects =
      manager.objects.modify batchId (Batch.retry options) := by
  unfold Manager.insert
  dsimp only
  split_ifs <;> rfl

theorem length_inFlight_insert_le (options : Options) (manager : Manager) (batchId : BatchId)
    (batch : Batch) :
    (manager.insert options batchId batch).inFlight.length ≤ manager.inFlight.length + 1 := by
  unfold Manager.insert
  dsimp only
  split_ifs
  · simp
  · exact Nat.le_succ _

theorem effort_scheduleInsert_le (options : Options) (batch : Batch) :
    effort options batch.scheduleInsert ≤ effort options batch + 1 := by
  have hless : 2 * (options.batchMaxRetries - batch.retries) ≤ effort options batch :=
    Nat.le_add_right _ _
  exact Nat.succ_le_succ hless

/-- A timer that fires and an insert that ends leave less work. -/
theorem work_lt {options : Options} {manager after : Manager} {event : Event}
    (hwithin : AllWithin options manager) (hcompletion : event.isCompletion = true)
    (hstep : BatchManager.step options manager event = some after) :
    work options after < work options manager := by
  cases outcome_of_step hstep with
  | store _ _ _ => exact absurd hcompletion Bool.false_ne_true
  | stop => exact absurd hcompletion Bool.false_ne_true
  | @lock batchId batch hbatch htimeout =>
    have hbefore : effort options batch =
        2 * (options.batchMaxRetries - batch.retries) + 2 := by rw [effort, htimeout]
    have hafter : effort options batch.lock =
        2 * (options.batchMaxRetries - batch.retries) + 1 := rfl
    refine work_lt_of_modify hbatch rfl ?_
    rw [hbefore, hafter]
    exact Nat.lt_succ_self _
  | @insert batchId batch hbatch htimeout =>
    have hleft : batch.retries < options.batchMaxRetries :=
      (hwithin batch (List.mem_of_getElem? hbatch)).2 (by simp [htimeout])
    have hbefore : effort options batch =
        2 * (options.batchMaxRetries - batch.retries) + 1 := by rw [effort, htimeout]
    have hafter : effort options (batch.retry options) =
        2 * (options.batchMaxRetries - (batch.retries + 1)) := by
      simp [effort, Batch.retry, if_pos hleft]
    have hflight := length_inFlight_insert_le options manager batchId batch
    exact work_lt_of_modify hbatch (objects_insert options manager batchId batch) (by omega)
  | @inserted batchId attempt batch hrunning =>
    obtain ⟨hbatch, hid, hmem⟩ := runningInsert_eq_some hrunning
    subst hid
    have hflight : (manager.inFlight.erase attempt).length + 1 = manager.inFlight.length :=
      List.length_erase_add_one (List.mem_of_mem_filter hmem)
    refine work_lt_of_modify hbatch rfl (Nat.add_lt_add_of_lt_of_le ?_ (Nat.le_add_right _ _))
    change 2 * (manager.inFlight.erase attempt).length < _
    omega
  | @failed batchId attempt batch hrunning =>
    obtain ⟨hbatch, hid, hmem⟩ := runningInsert_eq_some hrunning
    subst hid
    have hflight : (manager.inFlight.erase attempt).length + 1 = manager.inFlight.length :=
      List.length_erase_add_one (List.mem_of_mem_filter hmem)
    unfold Manager.failed
    dsimp only
    split_ifs
    · refine work_lt_of_modify hbatch rfl (Nat.add_lt_add_of_lt_of_le ?_ (Nat.le_add_right _ _))
      change 2 * (manager.inFlight.erase attempt).length < _
      omega
    · have hafter := effort_scheduleInsert_le options batch
      refine work_lt_of_modify hbatch rfl ?_
      change 2 * (manager.inFlight.erase attempt).length + _ < _
      omega

/-- A run of timers and ends of inserts is at most as long as the work that is left. -/
theorem length_le_work {options : Options} (events : List Event) {calls after : Calls}
    (hstaged : Staged (fun _ ↦ True) calls.manager) (hwithin : AllWithin options calls.manager)
    (hcompletion : ∀ event ∈ events, event.isCompletion = true)
    (hrun : Transition.run (Calls.step options) calls events = some after) :
    events.length ≤ work options calls.manager := by
  induction events generalizing calls with
  | nil => exact Nat.zero_le _
  | cons event events ih =>
    rw [Transition.run, Option.bind_eq_some_iff] at hrun
    obtain ⟨next, hstep, hrest⟩ := hrun
    obtain ⟨manager, hmanager, rfl⟩ := Option.map_eq_some_iff.mp hstep
    have hless := work_lt hwithin (hcompletion event List.mem_cons_self) hmanager
    have hlength := ih (hstaged.step (keepsGone_true options calls.manager event) hmanager)
      (hwithin.step hstaged hmanager)
      (fun other hother ↦ hcompletion other (List.mem_cons_of_mem event hother)) hrest
    exact Nat.lt_of_le_of_lt hlength hless

namespace CallbackInvariant

/-! ### Runs -/

theorem discharged {manager : Manager} {push : Push} (hdone : Done manager push) :
    Discharged manager push := by
  refine ⟨⟨push.object.call, none⟩, ?_, iff_of_true rfl hdone.succeeded⟩
  have hfilter : (invocations manager).filter (·.call = push.object.call) =
      (manager.history.done.filter (· = push.object.call)).map fun call ↦ ⟨call, none⟩ := by
    rw [invocations, List.filter_map]
    rfl
  rw [hfilter, List.filter_eq, hdone.called]
  rfl

theorem settlement_of_done {manager : Manager} {push : Push} (hdone : Done manager push) :
    (settlement manager push.object.call).isSome = true := by
  have hmem : push.object.call ∈ manager.history.done := by
    rw [← List.count_pos_iff, hdone.called]
    exact Nat.one_pos
  rw [settlement, Option.isSome_map, List.find?_isSome]
  exact ⟨⟨push.object.call, none⟩, List.mem_map.mpr ⟨_, hmem, rfl⟩, decide_eq_true rfl⟩

/-- When nothing is left to happen, every record has left its batch. -/
theorem hasLeft_of_idle {calls : Calls} (hinv : CallbackInvariant calls)
    (hidle : Idle calls.manager) (push : Push) : HasLeft calls.manager push := by
  intro batch hbatch hrecord
  have htimeout := hidle.1 _ batch hbatch
  obtain ⟨stage, hat⟩ := hinv.staged.stage _ batch hbatch
  cases stage with
  | opened => exact absurd (hat.2.2.1.symm.trans htimeout) (by simp)
  | waiting => exact absurd (hat.2.2.1.symm.trans htimeout) (by simp)
  | inserting =>
    have hrun := hat.2.2.2
    rw [runningOf, hidle.2] at hrun
    exact absurd hrun (by simp)
  | gone => exact absurd (hat.2.2.2.1 ▸ hrecord) List.not_mem_nil

theorem done_of_hasLeft {calls : Calls} (hinv : CallbackInvariant calls) {push : Push}
    (hpush : push ∈ calls.manager.history.pushed) (hcall : push.object.call ∈ calls.awaited)
    (hleft : HasLeft calls.manager push) : Done calls.manager push := by
  rcases hinv.place push hpush hcall with ⟨batch, hbatch, hrecord, -⟩ | hdone
  · exact absurd hrecord (hleft batch hbatch)
  · exact hdone

end CallbackInvariant

/-- In a run that loses no callback, the callback of a record that has left the manager was called
once, without an error exactly if a Cassandra batch with the record succeeded, and every promise
settles. -/
theorem callbacks_settle (options : Options) (calls : Calls)
    (hreachable : Transition.Reachable (Calls.step options)
      (fun calls event ↦ LosesNoCallback options calls event = true) (· = Calls.initial) calls) :
    Settles options calls := by
  have hboth : CallbackInvariant calls ∧ AllWithin options calls.manager := by
    refine @Transition.Reachable.invariant _ _ _ _ _
      (fun state ↦ CallbackInvariant state ∧ AllWithin options state.manager) ?_ ?_ _ hreachable
    · rintro state rfl
      exact ⟨callbackInvariant_initial, fun _ hmem ↦ absurd hmem List.not_mem_nil⟩
    · rintro state event next - ⟨hinv, hwithin⟩ hloses hstep
      obtain ⟨manager, hmanager, rfl⟩ := Option.map_eq_some_iff.mp hstep
      exact ⟨hinv.step hloses hstep, hwithin.step hinv.staged hmanager⟩
  obtain ⟨hinv, hwithin⟩ := hboth
  refine ⟨fun push hpush hcall hleft ↦ ?_, fun hidle push hpush hcall ↦ ?_,
    fun events after hcompletion hrun ↦ ?_⟩
  · exact CallbackInvariant.discharged (hinv.done_of_hasLeft hpush hcall hleft)
  · exact CallbackInvariant.settlement_of_done
      (hinv.done_of_hasLeft hpush hcall (hinv.hasLeft_of_idle hidle push))
  · exact length_le_work events hinv.staged hwithin hcompletion hrun

/-- A record is inserted at the second try, and then `stop` finds a batch without callbacks. -/
def settledTrace : List Event :=
  [.store "bucket" emptyRecord true, .lockTimeout 0, .insertTimeout 0, .insertFailed 0,
    .insertTimeout 0, .insertSucceeded 0, .store "other" emptyRecord false, .stop]

theorem callbacks_settle_settledTrace : ∃ calls,
    Transition.run (Calls.step smallOptions) Calls.initial settledTrace = some calls ∧
      calls.awaited = [0] ∧ Idle calls.manager ∧ Settles smallOptions calls := by
  refine ⟨_, rfl, rfl, ⟨fun batchId batch hbatch ↦ ?_, rfl⟩, callbacks_settle smallOptions _ ?_⟩
  · have hall : ([⟨"bucket", [], 0, 2, .inserted, [], none⟩,
        ⟨"other", [], 0, 0, .inserted, [], none⟩] : List Batch).all (·.timeout = none) = true := by
      decide
    exact of_decide_eq_true (List.all_eq_true.mp hall batch (List.mem_of_getElem? hbatch))
  · exact .of_checkedRun settledTrace (fun _ _ ↦ id) (.start rfl) rfl

/-- The insert of a record fails for the last time. -/
def forgottenByDrop : List Event :=
  [.store "bucket" emptyRecord true, .lockTimeout 0, .insertTimeout 0, .insertFailed 0,
    .insertTimeout 0, .insertFailed 0]

/-- `stop` finds a record in an open batch. -/
def forgottenByStop : List Event := [.store "bucket" emptyRecord true, .stop]

/-- Nothing is left to happen, and the promise of the only record is pending. -/
def isForgotten (calls : Calls) : Bool :=
  calls.awaited = [0] && calls.manager.history.pushed.map (·.object.call) = [0] &&
    calls.manager.inFlight.isEmpty && calls.manager.history.done.isEmpty &&
    calls.manager.objects.all fun batch ↦ batch.timeout = none && batch.records.isEmpty

/-- A record has left the manager, its callback was not called, and nothing is left that could call
it. -/
def Forgotten (calls : Calls) (push : Push) : Prop :=
  push ∈ calls.manager.history.pushed ∧ push.object.call ∈ calls.awaited ∧
    HasLeft calls.manager push ∧ Idle calls.manager ∧ ¬ Discharged calls.manager push ∧
      settlement calls.manager push.object.call = none

theorem exists_forgotten {calls : Calls} (hcheck : isForgotten calls = true) :
    ∃ push, Forgotten calls push := by
  simp only [isForgotten, Bool.and_eq_true, decide_eq_true_eq, List.isEmpty_iff,
    List.all_eq_true] at hcheck
  obtain ⟨⟨⟨⟨hawaited, hpushed⟩, hflight⟩, hdone⟩, hobjects⟩ := hcheck
  obtain ⟨push, hpush, hcall⟩ := List.map_eq_singleton_iff.mp hpushed
  have hnone : invocations calls.manager = [] := by rw [invocations, hdone, List.map_nil]
  refine ⟨push, by rw [hpush]; exact List.mem_singleton_self _, by rw [hcall, hawaited]; decide,
    fun batch hbatch hrecord ↦ ?_, ⟨fun _ batch hbatch ↦ ?_, hflight⟩, ?_, ?_⟩
  · rw [(hobjects batch (List.mem_of_getElem? hbatch)).2] at hrecord
    exact absurd hrecord List.not_mem_nil
  · exact (hobjects batch (List.mem_of_getElem? hbatch)).1
  · rintro ⟨invocation, hfilter, -⟩
    rw [hnone] at hfilter
    exact nomatch hfilter
  · rw [settlement, hnone]
    rfl

/-- A batch that is dropped after its last retry and a batch that `stop` clears forget their
callbacks: the promises stay pending for ever. -/
theorem callbacks_forgotten :
    (∃ calls push, Transition.run (Calls.step smallOptions) Calls.initial forgottenByDrop =
      some calls ∧ Forgotten calls push) ∧
    ∃ calls push, Transition.run (Calls.step smallOptions) Calls.initial forgottenByStop =
      some calls ∧ Forgotten calls push := by
  constructor
  · have hsome : (Transition.run (Calls.step smallOptions) Calls.initial forgottenByDrop).any
        isForgotten = true := by decide +kernel
    obtain ⟨calls, hrun, hcheck⟩ := (Option.any_eq_true _ _).mp hsome
    obtain ⟨push, hforgotten⟩ := exists_forgotten hcheck
    exact ⟨calls, push, hrun, hforgotten⟩
  · have hsome : (Transition.run (Calls.step smallOptions) Calls.initial forgottenByStop).any
        isForgotten = true := by decide +kernel
    obtain ⟨calls, hrun, hcheck⟩ := (Option.any_eq_true _ _).mp hsome
    obtain ⟨push, hforgotten⟩ := exists_forgotten hcheck
    exact ⟨calls, push, hrun, hforgotten⟩

end PomboStorageNode.Storage.BatchManager
