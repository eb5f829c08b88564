import PomboStorageNode.Storage.BucketManager

/-!
# The dates of buckets

The table of buckets has one row for each stream part and creation date, so two buckets of a part
with one date overwrite each other's row, and the rows written under the id that loses are out of
reach. A new bucket is dated by the oldest message that waits for one, and nothing compares that
date with the dates in use.

`Known` is the relation between the ids and the keys of all buckets, in memory or in the table. The
steps of the manager change it only when a bucket is created (`Keeps`), and it is one-to-one as
long as no bucket is created with a date in use (`Named`). `DatesFree` says when that is the case,
on the states in which the check takes up a stream part and goes on after its first lookup:
`dates_unique_and_ids_reachable` is the result over whole runs, and `secondBucketOfMillisecond` a
run in which two messages of one millisecond make two buckets with one date.
-/

set_option autoImplicit false

namespace PomboStorageNode.Storage.BucketDates

open Library Tables BucketManager

variable {package : HeapPackage} {options : BucketManagerOptions} {state after : State}

/-! ### Buckets by id and key -/

/-- A bucket in memory. -/
def InMemory (state : State) (id : BucketId) (key : BucketKey) : Prop :=
  ∃ bucket, state.buckets.get? id = some bucket ∧ key = ⟨bucket.streamPart, bucket.dateCreate⟩

/-- A bucket in memory has one date. -/
theorem InMemory.date_eq {id : BucketId} {streamPart : StreamPart} {first second : ℤ}
    (hfirst : InMemory state id ⟨streamPart, first⟩)
    (hsecond : InMemory state id ⟨streamPart, second⟩) : first = second := by
  obtain ⟨bucket, hbucket, hkey⟩ := hfirst
  obtain ⟨other, hother, hotherKey⟩ := hsecond
  obtain rfl := Option.some.inj (hbucket.symm.trans hother)
  exact (BucketKey.mk.inj (hkey.trans hotherKey.symm)).2

/-- A bucket with a row in the table. -/
def InTable (state : State) (id : BucketId) (key : BucketKey) : Prop :=
  ∃ columns, state.table.get? key = some columns ∧ columns.id = id

/-- A bucket, in memory or in the table. -/
def Known (state : State) (id : BucketId) (key : BucketKey) : Prop :=
  InMemory state id key ∨ InTable state id key

/-- Ids and keys of buckets are one-to-one, every id was made before, and every id that was handed
out belongs to a bucket. -/
structure Named (state : State) : Prop where
  id_unique : ∀ {id other key}, Known state id key → Known state other key → id = other
  key_unique : ∀ {id key other}, Known state id key → Known state id other → key = other
  used : ∀ {id key}, Known state id key → id ∈ state.usedIds
  handedOut : ∀ {streamPart id}, (streamPart, id) ∈ state.handedOut →
    ∃ date, Known state id ⟨streamPart, date⟩

/-- What a step that creates no bucket does: buckets stay in memory or leave it, and then have
rows; no bucket in memory is emptied; the rows keep their ids. -/
structure Keeps (state after : State) : Prop where
  memory : ∀ {id bucket}, after.buckets.get? id = some bucket → ∃ before,
    state.buckets.get? id = some before ∧ bucket.streamPart = before.streamPart ∧
      bucket.dateCreate = before.dateCreate ∧
      (before.isAlmostFull = true → bucket.isAlmostFull = true)
  known : ∀ {id key}, Known after id key ↔ Known state id key
  rows : ∀ {key columns}, state.table.get? key = some columns →
    ∃ others, after.table.get? key = some others ∧ others.id = columns.id
  usedIds : after.usedIds = state.usedIds

theorem Keeps.inMemory (hkeeps : Keeps state after) {id : BucketId} {key : BucketKey}
    (hmemory : InMemory after id key) : InMemory state id key := by
  obtain ⟨bucket, hbucket, rfl⟩ := hmemory
  obtain ⟨before, hbefore, hpart, hdate, -⟩ := hkeeps.memory hbucket
  exact ⟨before, hbefore, by rw [hpart, hdate]⟩

theorem Keeps.trans {final : State} (hfirst : Keeps state after) (hsecond : Keeps after final) :
    Keeps state final := by
  refine ⟨fun hbucket ↦ ?_, hsecond.known.trans hfirst.known, fun hrow ↦ ?_,
    hsecond.usedIds.trans hfirst.usedIds⟩
  · obtain ⟨middle, hmiddle, hpart, hdate, hfull⟩ := hsecond.memory hbucket
    obtain ⟨before, hbefore, hpart', hdate', hfull'⟩ := hfirst.memory hmiddle
    exact ⟨before, hbefore, hpart.trans hpart', hdate.trans hdate', fun h ↦ hfull (hfull' h)⟩
  · obtain ⟨middle, hmiddle, hid⟩ := hfirst.rows hrow
    obtain ⟨others, hothers, hid'⟩ := hsecond.rows hmiddle
    exact ⟨others, hothers, hid'.trans hid⟩

/-- A step that touches neither the buckets nor the table. -/
theorem Keeps.of_same (hbuckets : after.buckets = state.buckets) (htable : after.table = state.table)
    (hused : after.usedIds = state.usedIds) : Keeps state after := by
  refine ⟨fun {id bucket} hbucket ↦ ?_, ?_, fun {key columns} hrow ↦ ?_, hused⟩
  · rw [hbuckets] at hbucket
    exact ⟨bucket, hbucket, rfl, rfl, fun h ↦ h⟩
  · simp only [Known, InMemory, InTable, hbuckets, htable, implies_true]
  · rw [htable]
    exact ⟨columns, hrow, rfl⟩

theorem Keeps.named (hkeeps : Keeps state after) (hnamed : Named state)
    (hhandedOut : after.handedOut = state.handedOut) : Named after := by
  refine ⟨fun hid hother ↦ ?_, fun hkey hother ↦ ?_, fun hknown ↦ ?_, fun hmem ↦ ?_⟩
  · exact hnamed.id_unique (hkeeps.known.mp hid) (hkeeps.known.mp hother)
  · exact hnamed.key_unique (hkeeps.known.mp hkey) (hkeeps.known.mp hother)
  · rw [hkeeps.usedIds]
    exact hnamed.used (hkeeps.known.mp hknown)
  · rw [hhandedOut] at hmem
    obtain ⟨date, hknown⟩ := hnamed.handedOut hmem
    exact ⟨date, hkeeps.known.mpr hknown⟩

/-! ### The steps that keep buckets -/

theorem isAlmostFull_incrementBucket {bucket : Bucket} {size : ℕ} {now : ℤ}
    (hfull : bucket.isAlmostFull = true) :
    (bucket.incrementBucket size now).isAlmostFull = true := by
  rw [Bucket.isAlmostFull, Bucket.checkSize, decide_eq_true_eq] at hfull ⊢
  refine hfull.imp (fun hsize ↦ ?_) fun hrecords ↦ ?_
  · exact hsize.trans (Nat.mul_le_mul_left 100 (Nat.le_add_right _ _))
  · exact hrecords.trans (Nat.mul_le_mul_left 100 (Nat.le_add_right _ _))

/-- Changing the counters of a bucket keeps buckets. -/
theorem keeps_set_bucket {id : BucketId} {bucket changed : Bucket}
    (hbucket : state.buckets.get? id = some bucket)
    (hpart : changed.streamPart = bucket.streamPart)
    (hdate : changed.dateCreate = bucket.dateCreate)
    (hfull : bucket.isAlmostFull = true → changed.isAlmostFull = true) :
    Keeps state { state with buckets := state.buckets.set id changed } := by
  have hmemory : ∀ {other found}, (state.buckets.set id changed).get? other = some found →
      ∃ before, state.buckets.get? other = some before ∧ found.streamPart = before.streamPart ∧
        found.dateCreate = before.dateCreate ∧
        (before.isAlmostFull = true → found.isAlmostFull = true) := by
    intro other found hfound
    by_cases heq : other = id
    · subst heq
      rw [OrderedMap.get?_set_self, Option.some.injEq] at hfound
      subst hfound
      exact ⟨bucket, hbucket, hpart, hdate, hfull⟩
    · rw [OrderedMap.get?_set_of_ne _ _ heq] at hfound
      exact ⟨found, hfound, rfl, rfl, fun h ↦ h⟩
  refine ⟨hmemory, fun {other key} ↦ or_congr_left ?_, fun hrow ↦ ⟨_, hrow, rfl⟩, rfl⟩
  constructor
  · rintro ⟨found, hfound, rfl⟩
    obtain ⟨before, hbefore, hpart', hdate', -⟩ := hmemory hfound
    exact ⟨before, hbefore, by rw [hpart', hdate']⟩
  · rintro ⟨before, hbefore, rfl⟩
    by_cases heq : other = id
    · subst heq
      rw [hbucket, Option.some.injEq] at hbefore
      subst hbefore
      exact ⟨changed, OrderedMap.get?_set_self _ _ _, by rw [hpart, hdate]⟩
    · exact ⟨before, (OrderedMap.get?_set_of_ne _ _ heq).trans hbefore, rfl⟩

theorem keeps_incrementBucket (bucketId : BucketId) (size : ℕ) (now : ℤ) :
    Keeps state (incrementBucket state bucketId size now) := by
  unfold incrementBucket
  split
  · rename_i bucket hbucket
    exact keeps_set_bucket hbucket rfl rfl isAlmostFull_incrementBucket
  · exact Keeps.of_same rfl rfl rfl

/-- An update that reaches the table keeps buckets: the row it writes is that of a bucket in
memory, and any row it replaces has the same id. -/
theorem keeps_applyUpdate (hnamed : Named state) {item : StoreItem}
    (store : Option (List StoreItem)) (hmemory : InMemory state item.columns.id item.key) :
    Keeps state { state with table := state.table.set item.key item.columns, store := store } := by
  have hrow : ∀ {key columns}, (state.table.set item.key item.columns).get? key = some columns →
      Known state columns.id key := by
    intro key columns hcolumns
    by_cases heq : key = item.key
    · subst heq
      rw [OrderedMap.get?_set_self, Option.some.injEq] at hcolumns
      exact hcolumns ▸ Or.inl hmemory
    · rw [OrderedMap.get?_set_of_ne _ _ heq] at hcolumns
      exact Or.inr ⟨columns, hcolumns, rfl⟩
  have hkept : ∀ {key columns}, state.table.get? key = some columns →
      ∃ others, (state.table.set item.key item.columns).get? key = some others ∧
        others.id = columns.id := by
    intro key columns hcolumns
    by_cases heq : key = item.key
    · subst heq
      refine ⟨item.columns, OrderedMap.get?_set_self _ _ _, ?_⟩
      exact hnamed.id_unique (Or.inl hmemory) (Or.inr ⟨columns, hcolumns, rfl⟩)
    · exact ⟨columns, (OrderedMap.get?_set_of_ne _ _ heq).trans hcolumns, rfl⟩
  refine ⟨fun hfound ↦ ⟨_, hfound, rfl, rfl, fun h ↦ h⟩, fun {id key} ↦ ?_, hkept, rfl⟩
  constructor
  · rintro (hinMemory | ⟨columns, hcolumns, rfl⟩)
    · exact Or.inl hinMemory
    · exact hrow hcolumns
  · rintro (hinMemory | ⟨columns, hcolumns, rfl⟩)
    · exact Or.inl hinMemory
    · obtain ⟨others, hothers, hid⟩ := hkept hcolumns
      exact Or.inr ⟨others, hothers, hid⟩

/-! ### The end of a store -/

/-- The updates that are under way are those of buckets in memory, and a fulfilled one has reached
the table. -/
def Updating (state : State) (items : List StoreItem) : Prop :=
  ∀ item ∈ items, InMemory state item.columns.id item.key ∧
    (item.applied = true → ∃ columns, state.table.get? item.key = some columns) ∧
    (item.fulfilled = some true → item.applied = true)

/-- A bucket that a store has written has its row. -/
theorem Updating.exists_row {items : List StoreItem} (hitems : Updating state items)
    {bucket : Bucket} (hbucket : state.buckets.get? bucket.id = some bucket)
    (hwritten : WrittenBy items bucket) :
    ∃ columns, state.table.get? ⟨bucket.streamPart, bucket.dateCreate⟩ = some columns := by
  obtain ⟨item, hitem, hid, hfulfilled, -⟩ := hwritten
  obtain ⟨⟨before, hbefore, hkey⟩, happlied, hdone⟩ := hitems item hitem
  rw [hid, hbucket, Option.some.injEq] at hbefore
  rw [hbefore, ← hkey]
  exact happlied (hdone hfulfilled)

/-- The end of a store keeps buckets: what leaves memory has its row. -/
theorem keeps_of_sheds {items : List StoreItem} (hsheds : Sheds package items state after)
    (hcoherent : Coherent package state) (hnamed : Named state)
    (hitems : Updating state items) : Keeps state after := by
  have hmemory : ∀ {id bucket}, after.buckets.get? id = some bucket → ∃ before,
      state.buckets.get? id = some before ∧ bucket.streamPart = before.streamPart ∧
        bucket.dateCreate = before.dateCreate ∧
        (before.isAlmostFull = true → bucket.isAlmostFull = true) := by
    intro id bucket hbucket
    obtain ⟨before, hbefore, rfl | ⟨rfl, -⟩⟩ := hsheds.memory hbucket
    · exact ⟨bucket, hbefore, rfl, rfl, fun hfull ↦ hfull⟩
    · exact ⟨before, hbefore, rfl, rfl, fun hfull ↦ hfull⟩
  refine ⟨hmemory, fun {id key} ↦ ⟨?_, ?_⟩, fun {key columns} hrow ↦ ?_, hsheds.usedIds⟩
  · rintro (⟨bucket, hbucket, rfl⟩ | ⟨columns, hcolumns, hid⟩)
    · obtain ⟨before, hbefore, hpart, hdate, -⟩ := hmemory hbucket
      exact Or.inl ⟨before, hbefore, by rw [hpart, hdate]⟩
    · exact Or.inr ⟨columns, hsheds.table ▸ hcolumns, hid⟩
  · rintro (⟨before, hbefore, rfl⟩ | ⟨columns, hcolumns, hid⟩)
    · cases hafter : after.buckets.get? id with
      | some bucket =>
        obtain ⟨found, hfound, hpart, hdate, -⟩ := hmemory hafter
        obtain rfl := Option.some.inj (hfound.symm.trans hbefore)
        exact Or.inl ⟨bucket, hafter, by rw [hpart, hdate]⟩
      | none =>
        -- the row of the bucket has its id, since no other bucket has its date
        obtain rfl := hcoherent.id_eq hbefore
        obtain ⟨columns, hrow⟩ : ∃ columns,
            state.table.get? ⟨before.streamPart, before.dateCreate⟩ = some columns := by
          rcases hsheds.left hbefore hafter with hstored | hwritten
          · exact hcoherent.stored_row hbefore hstored
          · exact hitems.exists_row hbefore hwritten
        refine Or.inr ⟨columns, hsheds.table ▸ hrow, ?_⟩
        exact hnamed.id_unique (Or.inr ⟨columns, hrow, rfl⟩) (Or.inl ⟨before, hbefore, rfl⟩)
    · exact Or.inr ⟨columns, hsheds.table ▸ hcolumns, hid⟩
  · exact ⟨columns, hsheds.table ▸ hrow, rfl⟩

theorem coherent_of_sheds {items : List StoreItem} (hsheds : Sheds package items state after)
    (hcoherent : Coherent package state) (hitems : Updating state items) :
    Coherent package after := by
  refine ⟨hsheds.heaps, fun {id bucket} hbucket hstored ↦ ?_⟩
  rw [hsheds.table]
  obtain ⟨before, hbefore, rfl | ⟨rfl, hwritten⟩⟩ := hsheds.memory hbucket
  · exact hcoherent.stored_row hbefore hstored
  · obtain rfl := hcoherent.id_eq hbefore
    obtain ⟨columns, hrow⟩ := hitems.exists_row hbefore hwritten
    exact ⟨columns, hrow⟩

/-! ### Taking buckets into memory -/

/-- Memory after a bucket was taken into it.
Assumes: no bucket with its id is in memory. -/
theorem inMemory_pushBucket {bucket : Bucket} (hnew : state.buckets.get? bucket.id = none)
    {id : BucketId} {key : BucketKey} : InMemory (pushBucket package state bucket) id key ↔
      InMemory state id key ∨ id = bucket.id ∧ key = ⟨bucket.streamPart, bucket.dateCreate⟩ := by
  unfold InMemory
  change (∃ found, (state.buckets.set bucket.id bucket).get? id = some found ∧ _) ↔ _
  by_cases heq : id = bucket.id
  · simp [heq, hnew]
  · simp [OrderedMap.get?_set_of_ne _ _ heq, heq]

theorem known_pushBucket {bucket : Bucket} (hnew : state.buckets.get? bucket.id = none)
    {id : BucketId} {key : BucketKey} : Known (pushBucket package state bucket) id key ↔
      Known state id key ∨ id = bucket.id ∧ key = ⟨bucket.streamPart, bucket.dateCreate⟩ := by
  unfold Known
  rw [inMemory_pushBucket hnew]
  exact or_right_comm

/-- What a lookup returned: a bucket of the stream part that has, or had, a row. -/
structure Answers (state : State) (streamPart : StreamPart) (bucket : Bucket) : Prop where
  streamPart_eq : bucket.streamPart = streamPart
  stored_eq : bucket.stored = false
  known : Known state bucket.id ⟨streamPart, bucket.dateCreate⟩

/-- No bucket of the stream part has the date. -/
def Unused (state : State) (streamPart : StreamPart) (date : ℤ) : Prop :=
  ∀ id, ¬ Known state id ⟨streamPart, date⟩

/-- Loading a bucket changes nothing about the buckets there are. -/
theorem Answers.known_pushBucket {streamPart : StreamPart} {bucket : Bucket}
    (hanswers : Answers state streamPart bucket) (hnew : state.buckets.get? bucket.id = none)
    {id : BucketId} {key : BucketKey} :
    Known (pushBucket package state bucket) id key ↔ Known state id key := by
  rw [BucketDates.known_pushBucket hnew]
  refine or_iff_left_of_imp ?_
  rintro ⟨rfl, rfl⟩
  rw [hanswers.streamPart_eq]
  exact hanswers.known

theorem Answers.named_pushBucket {streamPart : StreamPart} {bucket : Bucket}
    (hanswers : Answers state streamPart bucket) (hnamed : Named state)
    (hnew : state.buckets.get? bucket.id = none) : Named (pushBucket package state bucket) := by
  have hknown : ∀ {id key}, Known (pushBucket package state bucket) id key ↔ Known state id key :=
    hanswers.known_pushBucket hnew
  refine ⟨fun hid hother ↦ ?_, fun hkey hother ↦ ?_, fun hid ↦ ?_, fun hmem ↦ ?_⟩
  · exact hnamed.id_unique (hknown.mp hid) (hknown.mp hother)
  · exact hnamed.key_unique (hknown.mp hkey) (hknown.mp hother)
  · exact hnamed.used (hknown.mp hid)
  · obtain ⟨date, hdate⟩ := hnamed.handedOut hmem
    exact ⟨date, hknown.mpr hdate⟩

/-- An id that was never used is that of no bucket in memory. -/
theorem Named.get?_eq_none (hnamed : Named state) {id : BucketId} (hfresh : id ∉ state.usedIds) :
    state.buckets.get? id = none := by
  rw [Option.eq_none_iff_forall_ne_some]
  exact fun bucket hbucket ↦ hfresh (hnamed.used (Or.inl ⟨bucket, hbucket, rfl⟩))

/-- The buckets after a new one was created. -/
theorem known_insertBucket (hnamed : Named state) {streamPart : StreamPart} {minTimestamp now : ℤ}
    {id : BucketId} (hfresh : id ∉ state.usedIds) {other : BucketId} {key : BucketKey} :
    Known (insertBucket package options state streamPart minTimestamp id now) other key ↔
      Known state other key ∨ other = id ∧ key = ⟨streamPart, minTimestamp⟩ := by
  have hnew : OrderedMap.get? (State.buckets { state with usedIds := id :: state.usedIds })
      (Bucket.create options now id streamPart 0 0 minTimestamp).id = none :=
    hnamed.get?_eq_none hfresh
  exact known_pushBucket hnew

/-- A new bucket keeps ids and keys one-to-one.
Assumes: its id was never used, and no bucket has its date. -/
theorem named_insertBucket (hnamed : Named state) {streamPart : StreamPart} {minTimestamp now : ℤ}
    {id : BucketId} (hfresh : id ∉ state.usedIds)
    (hunused : Unused state streamPart minTimestamp) :
    Named (insertBucket package options state streamPart minTimestamp id now) := by
  have hknown : ∀ {other key}, Known (insertBucket package options state streamPart minTimestamp
      id now) other key ↔ Known state other key ∨ other = id ∧ key = ⟨streamPart, minTimestamp⟩ :=
    known_insertBucket hnamed hfresh
  have hnotUsed : ∀ {key}, ¬ Known state id key := fun hknown ↦ hfresh (hnamed.used hknown)
  refine ⟨fun hid hother ↦ ?_, fun hkey hother ↦ ?_, fun hid ↦ ?_, fun hmem ↦ ?_⟩
  · rcases hknown.mp hid with hold | ⟨hnewId, hnewKey⟩ <;>
      rcases hknown.mp hother with holdOther | ⟨hnewOther, hnewKeyOther⟩
    · exact hnamed.id_unique hold holdOther
    · exact absurd (hnewKeyOther ▸ hold) (hunused _)
    · exact absurd (hnewKey ▸ holdOther) (hunused _)
    · exact hnewId.trans hnewOther.symm
  · rcases hknown.mp hkey with hold | ⟨hnewId, hnewKey⟩ <;>
      rcases hknown.mp hother with holdOther | ⟨hnewIdOther, hnewOther⟩
    · exact hnamed.key_unique hold holdOther
    · exact absurd (hnewIdOther ▸ hold) hnotUsed
    · exact absurd (hnewId ▸ holdOther) hnotUsed
    · exact hnewKey.trans hnewOther.symm
  · rcases hknown.mp hid with hid | ⟨rfl, -⟩
    · exact List.mem_cons_of_mem _ (hnamed.used hid)
    · exact List.mem_cons_self
  · obtain ⟨date, hdate⟩ := hnamed.handedOut hmem
    exact ⟨date, hknown.mpr (Or.inl hdate)⟩

/-! ### What the check knows -/

/-- What holds while the check awaits a lookup for a stream part, so that a bucket it creates gets
a date that is not in use. -/
def PhaseFacts (state : State) : CheckPhase → Prop
  | .between => True
  | .latest streamPart minTimestamp true answer =>
    Unused state streamPart minTimestamp ∧
      ∀ bucket, answer = some (some bucket) → Answers state streamPart bucket
  | .latest streamPart minTimestamp false answer =>
    (∀ id date, ¬ InMemory state id ⟨streamPart, date⟩) ∧
      (minTimestamp = 0 → ∀ id, Known state id ⟨streamPart, 0⟩ → ∀ other date,
        Known state other ⟨streamPart, date⟩ → date ≤ 0) ∧
      (answer = some none → ∀ date, Unused state streamPart date) ∧
      ∀ bucket, answer = some (some bucket) → Answers state streamPart bucket ∧
        ∀ id date, Known state id ⟨streamPart, date⟩ → date ≤ bucket.dateCreate
  | .atTimestamp streamPart minTimestamp answer =>
    (∀ id, ¬ InMemory state id ⟨streamPart, minTimestamp⟩) ∧
      (minTimestamp = 0 → Unused state streamPart 0) ∧
      (answer = some none → Unused state streamPart minTimestamp) ∧
      ∀ bucket, answer = some (some bucket) → Answers state streamPart bucket ∧
        (bucket.dateCreate = minTimestamp ∨ Unused state streamPart minTimestamp)

theorem Keeps.answers (hkeeps : Keeps state after) {streamPart : StreamPart} {bucket : Bucket}
    (hanswers : Answers state streamPart bucket) : Answers after streamPart bucket :=
  ⟨hanswers.streamPart_eq, hanswers.stored_eq, hkeeps.known.mpr hanswers.known⟩

theorem Keeps.unused (hkeeps : Keeps state after) {streamPart : StreamPart} {date : ℤ}
    (hunused : Unused state streamPart date) : Unused after streamPart date :=
  fun id hknown ↦ hunused id (hkeeps.known.mp hknown)

/-- The steps that create no bucket keep what the check knows. -/
theorem Keeps.phaseFacts (hkeeps : Keeps state after) {phase : CheckPhase}
    (hfacts : PhaseFacts state phase) : PhaseFacts after phase := by
  match phase, hfacts with
  | .between, _ => trivial
  | .latest _ _ true _, ⟨hunused, hanswer⟩ =>
    exact ⟨hkeeps.unused hunused, fun bucket hbucket ↦ hkeeps.answers (hanswer bucket hbucket)⟩
  | .latest _ _ false _, ⟨hmemory, hzero, hnone, hanswer⟩ =>
    refine ⟨fun id date hid ↦ hmemory id date (hkeeps.inMemory hid), ?_, ?_, ?_⟩
    · exact fun heq id hid other date hother ↦
        hzero heq id (hkeeps.known.mp hid) other date (hkeeps.known.mp hother)
    · exact fun heq date ↦ hkeeps.unused (hnone heq date)
    · intro bucket hbucket
      obtain ⟨hanswers, hnewest⟩ := hanswer bucket hbucket
      exact ⟨hkeeps.answers hanswers, fun id date hid ↦ hnewest id date (hkeeps.known.mp hid)⟩
  | .atTimestamp _ _ _, ⟨hmemory, hzero, hnone, hanswer⟩ =>
    refine ⟨fun id hid ↦ hmemory id (hkeeps.inMemory hid), fun heq ↦ hkeeps.unused (hzero heq),
      fun heq ↦ hkeeps.unused (hnone heq), fun bucket hbucket ↦ ?_⟩
    obtain ⟨hanswers, hdate⟩ := hanswer bucket hbucket
    exact ⟨hkeeps.answers hanswers, hdate.imp_right hkeeps.unused⟩

/-- The bucket that a lookup found is one that has, or had, a row. -/
theorem PhaseFacts.answers {phase : CheckPhase} (hfacts : PhaseFacts state phase)
    {streamPart : StreamPart} {bucket : Bucket}
    (hanswer : answerOf phase = some (streamPart, some bucket)) :
    Answers state streamPart bucket := by
  match phase, hfacts, hanswer with
  | .latest _ _ true (some (some _)), hfacts, rfl => exact hfacts.2 bucket rfl
  | .latest _ _ false (some (some _)), hfacts, rfl => exact (hfacts.2.2.2 bucket rfl).1
  | .atTimestamp _ _ (some (some _)), hfacts, rfl => exact (hfacts.2.2.2 bucket rfl).1

/-- The part of the invariant that does not depend on where the check stands. -/
structure Sound (package : HeapPackage) (state : State) : Prop where
  coherent : Coherent package state
  named : Named state
  updating : ∀ items, state.store = some items → Updating state items

/-- The invariant of the manager. -/
structure Invariant (package : HeapPackage) (state : State) : Prop
    extends Sound package state where
  phase : ∀ run, state.check = some run → PhaseFacts state run.phase

/-- Updates stay updates of buckets in memory while no bucket leaves memory and no row the table. -/
theorem Updating.mono {items : List StoreItem} (hitems : Updating state items)
    (hmemory : ∀ {id key}, InMemory state id key → InMemory after id key)
    (hrows : ∀ {key columns}, state.table.get? key = some columns →
      ∃ columns, after.table.get? key = some columns) : Updating after items := by
  intro item hitem
  obtain ⟨hinMemory, happlied, hfulfilled⟩ := hitems item hitem
  refine ⟨hmemory hinMemory, fun hdone ↦ ?_, hfulfilled⟩
  obtain ⟨columns, hcolumns⟩ := happlied hdone
  exact hrows hcolumns

/-- The steps that create no bucket keep the invariant, as far as they leave the check, the store
and the ids that were handed out in order. -/
theorem Invariant.of_keeps (hinvariant : Invariant package state) (hkeeps : Keeps state after)
    (hcoherent : Coherent package after) (hhandedOut : after.handedOut = state.handedOut)
    (hstore : ∀ items, after.store = some items → Updating after items)
    (hcheck : ∀ run, after.check = some run → PhaseFacts state run.phase) :
    Invariant package after :=
  ⟨⟨hcoherent, hkeeps.named hinvariant.named hhandedOut, hstore⟩,
    fun run hrun ↦ hkeeps.phaseFacts (hcheck run hrun)⟩

/-- The check moves to a phase in which it knows what it needs. -/
theorem Sound.setPhase (hsound : Sound package state) (remaining : List StreamPart)
    {phase : CheckPhase} (hphase : PhaseFacts state phase) :
    Invariant package (state.setPhase remaining phase) := by
  have hkeeps : Keeps state (state.setPhase remaining phase) := Keeps.of_same rfl rfl rfl
  refine ⟨⟨?_, hkeeps.named hsound.named rfl, fun items hitems ↦ hsound.updating items hitems⟩, ?_⟩
  · exact hsound.coherent.congr rfl (fun _ ↦ rfl) fun _ columns hrow ↦ ⟨columns, hrow⟩
  · rintro run ⟨⟩
    exact hkeeps.phaseFacts hphase

/-- The check ends. -/
theorem Invariant.endCheck (hinvariant : Invariant package state) :
    Invariant package { state with check := none } :=
  hinvariant.of_keeps (Keeps.of_same rfl rfl rfl)
    (hinvariant.coherent.congr rfl (fun _ ↦ rfl) fun _ columns hrow ↦ ⟨columns, hrow⟩) rfl
    hinvariant.updating fun _ hrun ↦ nomatch hrun

/-! ### Steps of the calls and of the store -/

theorem Invariant.getBucketId (hinvariant : Invariant package state) (streamPart : StreamPart)
    (timestamp : ℤ) :
    Invariant package (BucketManager.getBucketId state streamPart timestamp).2 := by
  obtain ⟨hbuckets, htable, hused, hcheck, hstore, hheap, hhandedOut⟩ :=
    getBucketId_frame state streamPart timestamp
  have hkeeps := Keeps.of_same hbuckets htable hused
  refine ⟨⟨hinvariant.coherent.congr hbuckets hheap fun _ columns hrow ↦ ⟨columns, htable ▸ hrow⟩,
    ⟨fun hid hother ↦ ?_, fun hkey hother ↦ ?_, fun hknown ↦ ?_, fun {part id} hmem ↦ ?_⟩,
    fun items hitems ↦ ?_⟩, fun run hrun ↦ ?_⟩
  · exact hinvariant.named.id_unique (hkeeps.known.mp hid) (hkeeps.known.mp hother)
  · exact hinvariant.named.key_unique (hkeeps.known.mp hkey) (hkeeps.known.mp hother)
  · rw [hused]
    exact hinvariant.named.used (hkeeps.known.mp hknown)
  · rcases hhandedOut _ hmem with hold | ⟨rfl, hfind⟩
    · obtain ⟨date, hknown⟩ := hinvariant.named.handedOut hold
      exact ⟨date, hkeeps.known.mpr hknown⟩
    · obtain ⟨-, bucket, -, hbucket, hpart, -⟩ := hinvariant.coherent.findBucketId_eq_some hfind
      refine ⟨bucket.dateCreate, hkeeps.known.mpr (Or.inl ⟨bucket, hbucket, ?_⟩)⟩
      rw [hpart]
  · refine (hinvariant.updating items (hstore ▸ hitems)).mono ?_ ?_
    · simp only [InMemory, hbuckets]
      exact fun h ↦ h
    · rw [htable]
      exact fun hrow ↦ ⟨_, hrow⟩
  · exact hkeeps.phaseFacts (hinvariant.phase run (hcheck ▸ hrun))

theorem Invariant.incrementBucket (hinvariant : Invariant package state) (bucketId : BucketId)
    (size : ℕ) (now : ℤ) :
    Invariant package (BucketManager.incrementBucket state bucketId size now) := by
  have hkeeps : Keeps state (BucketManager.incrementBucket state bucketId size now) :=
    keeps_incrementBucket bucketId size now
  cases hbucket : state.buckets.get? bucketId with
  | none =>
    simp only [BucketManager.incrementBucket, hbucket]
    exact hinvariant
  | some bucket =>
    simp only [BucketManager.incrementBucket, hbucket] at hkeeps ⊢
    refine hinvariant.of_keeps hkeeps
      (hinvariant.coherent.set_bucket hbucket rfl rfl rfl fun hstored ↦ by cases hstored) rfl
      (fun items hitems ↦ ?_) fun run hrun ↦ hinvariant.phase run hrun
    refine (hinvariant.updating items hitems).mono ?_ fun hrow ↦ ⟨_, hrow⟩
    rintro id key ⟨found, hfound, rfl⟩
    by_cases heq : id = bucketId
    · subst heq
      obtain rfl := Option.some.inj (hfound.symm.trans hbucket)
      exact ⟨_, OrderedMap.get?_set_self _ _ _, rfl⟩
    · exact ⟨found, (OrderedMap.get?_set_of_ne _ _ heq).trans hfound, rfl⟩

theorem updating_beginStore (hcoherent : Coherent package state) :
    Updating state
      ((state.buckets.values.filter fun bucket ↦ bucket.stored = false).map updateOf) := by
  intro item hitem
  obtain ⟨bucket, hbucket, rfl⟩ := List.mem_map.mp hitem
  have hget := hcoherent.values_spec.2 bucket (List.mem_filter.mp hbucket).1
  refine ⟨⟨bucket, hget, rfl⟩, fun happlied ↦ ?_, fun hdone ↦ ?_⟩
  · cases happlied
  · cases hdone

/-- An element of a list in which one place was overwritten. -/
theorem forall_mem_set {items : List StoreItem} {index : ℕ} {changed : StoreItem}
    {property : StoreItem → Prop} (hitems : ∀ item ∈ items, property item)
    (hchanged : property changed) : ∀ item ∈ items.set index changed, property item := by
  intro item hitem
  rcases List.mem_or_eq_of_mem_set hitem with hmem | rfl
  · exact hitems item hmem
  · exact hchanged

theorem Invariant.applyUpdate (hinvariant : Invariant package state) {items : List StoreItem}
    {index : ℕ} {item : StoreItem} (hstore : state.store = some items)
    (hitem : items[index]? = some item) :
    Invariant package { state with
      table := state.table.set item.key item.columns
      store := some (items.set index { item with applied := true }) } := by
  have hitems := hinvariant.updating items hstore
  obtain ⟨hmemory, -, -⟩ := hitems item (List.mem_of_getElem? hitem)
  have hkeeps := keeps_applyUpdate hinvariant.named
    (some (items.set index { item with applied := true })) hmemory
  have hrows : ∀ {key columns}, state.table.get? key = some columns →
      ∃ columns, (state.table.set item.key item.columns).get? key = some columns := by
    intro key columns hrow
    obtain ⟨others, hothers, -⟩ := hkeeps.rows hrow
    exact ⟨others, hothers⟩
  refine hinvariant.of_keeps hkeeps
    (hinvariant.coherent.congr rfl (fun _ ↦ rfl) fun _ _ hrow ↦ hrows hrow) rfl ?_
    fun run hrun ↦ hinvariant.phase run hrun
  rintro others ⟨⟩
  refine forall_mem_set (hitems.mono (fun h ↦ h) hrows)
    ⟨hmemory, fun _ ↦ ⟨item.columns, OrderedMap.get?_set_self _ _ _⟩, fun _ ↦ rfl⟩

theorem Invariant.settleUpdate (hinvariant : Invariant package state) {items : List StoreItem}
    {index : ℕ} {item : StoreItem} {fulfilled : Bool} (hstore : state.store = some items)
    (hitem : items[index]? = some item) (hsettle : fulfilled = true → item.applied = true) :
    Invariant package { state with
      store := some (items.set index { item with fulfilled := some fulfilled }) } := by
  have hitems := hinvariant.updating items hstore
  obtain ⟨hmemory, happlied, -⟩ := hitems item (List.mem_of_getElem? hitem)
  refine hinvariant.of_keeps (Keeps.of_same rfl rfl rfl)
    (hinvariant.coherent.congr rfl (fun _ ↦ rfl) fun _ columns hrow ↦ ⟨columns, hrow⟩) rfl ?_
    fun run hrun ↦ hinvariant.phase run hrun
  rintro others ⟨⟩
  exact forall_mem_set hitems
    ⟨hmemory, happlied, fun hdone ↦ hsettle (Option.some.inj hdone)⟩

theorem Invariant.endStore (hinvariant : Invariant package state) {items : List StoreItem}
    (hstore : state.store = some items) (now : ℤ) :
    Invariant package (BucketManager.endStore package state items now) := by
  have hitems := hinvariant.updating items hstore
  have hsheds := sheds_endStore hinvariant.coherent.toHeapCoherent items now
  refine hinvariant.of_keeps (keeps_of_sheds hsheds hinvariant.coherent hinvariant.named hitems)
    (coherent_of_sheds hsheds hinvariant.coherent hitems) hsheds.handedOut
    (fun others hothers ↦ nomatch hothers) fun run hrun ↦ hinvariant.phase run ?_
  rw [← hsheds.check, hrun]

/-! ### Steps of the check -/

theorem inMemory_iff_mem_heap (hcoherent : HeapCoherent package state) {id : BucketId}
    {streamPart : StreamPart} {date : ℤ} :
    InMemory state id ⟨streamPart, date⟩ ↔ ⟨date, id⟩ ∈ state.heap streamPart := by
  rw [hcoherent.mem_heap, InMemory]
  simp only [BucketKey.mk.injEq]
  exact exists_congr fun bucket ↦ and_congr_right fun _ ↦
    and_congr (eq_comm) (eq_comm)

/-- A row whose id is that of a bucket in memory is the row of that bucket. -/
theorem Named.inMemory_of_has (hnamed : Named state) {id : BucketId} {key : BucketKey}
    (hknown : Known state id key) (hhas : state.buckets.has id = true) :
    InMemory state id key := by
  obtain ⟨bucket, hbucket⟩ := Option.isSome_iff_exists.mp hhas
  have hmemory : InMemory state id ⟨bucket.streamPart, bucket.dateCreate⟩ := ⟨bucket, hbucket, rfl⟩
  rw [hnamed.key_unique hknown (Or.inl hmemory)]
  exact hmemory

/-- The stream part can be taken up: while its latest bucket is almost full, no bucket has the date
of the oldest waiting message; and if that message has the timestamp zero, then a row with this date
is that of a bucket in memory, or will be found as the newest one. -/
structure FreeToTakeUp (state : State) (streamPart : StreamPart) (minTimestamp : ℤ) : Prop where
  full : ∀ latest, getLatestInMemoryBucket state streamPart = some latest →
    latest.isAlmostFull = true → Unused state streamPart minTimestamp
  zero : minTimestamp = 0 → ∀ columns, state.table.get? ⟨streamPart, 0⟩ = some columns →
    state.buckets.has columns.id = true ∨
      getLatestInMemoryBucket state streamPart = none ∧ ∀ date others,
        state.table.get? ⟨streamPart, date⟩ = some others → date ≤ 0

/-- When the steps of the check create no bucket with a date in use: a stream part that is taken up
is free to be, and the latest bucket, when it is loaded, is not an almost full one of the same date
as the oldest waiting message. -/
def DatesFree (state : State) : Event → Prop
  | .takeUp => ∀ streamPart remaining minTimestamp,
    state.check = some ⟨streamPart :: remaining, .between⟩ →
    (state.streamParts.get? streamPart).bind StreamPartState.minTimestamp = some minTimestamp →
    FreeToTakeUp state streamPart minTimestamp
  | .resume _ _ => ∀ remaining streamPart minTimestamp found,
    state.check = some ⟨remaining, .latest streamPart minTimestamp false (some (some found))⟩ →
    ¬ (found.dateCreate = minTimestamp ∧ found.isAlmostFull = true)
  | _ => True

theorem Invariant.takeUp (hinvariant : Invariant package state) {streamPart : StreamPart}
    (remaining : List StreamPart)
    (hfree : ∀ minTimestamp,
      (state.streamParts.get? streamPart).bind StreamPartState.minTimestamp = some minTimestamp →
      FreeToTakeUp state streamPart minTimestamp) :
    Invariant package (BucketManager.takeUp state streamPart remaining) := by
  have hcoherent := hinvariant.coherent
  have hrowInMemory : ∀ {date columns}, state.table.get? ⟨streamPart, date⟩ = some columns →
      state.buckets.has columns.id = true → InMemory state columns.id ⟨streamPart, date⟩ :=
    fun hrow hhas ↦ hinvariant.named.inMemory_of_has (Or.inr ⟨_, hrow, rfl⟩) hhas
  unfold BucketManager.takeUp
  cases hmin : (state.streamParts.get? streamPart).bind StreamPartState.minTimestamp with
  | none => exact hinvariant.setPhase remaining trivial
  | some minTimestamp =>
    have hfree := hfree minTimestamp hmin
    cases hlatest : getLatestInMemoryBucket state streamPart with
    | none =>
      have hmemory : ∀ id date, ¬ InMemory state id ⟨streamPart, date⟩ := by
        intro id date hid
        rw [inMemory_iff_mem_heap hcoherent.toHeapCoherent, hcoherent.latest_eq_none hlatest] at hid
        cases hid
      have hrow : ∀ {id date}, Known state id ⟨streamPart, date⟩ →
          ∃ columns, state.table.get? ⟨streamPart, date⟩ = some columns := by
        rintro id date (hid | ⟨columns, hcolumns, -⟩)
        · exact absurd hid (hmemory id date)
        · exact ⟨columns, hcolumns⟩
      refine hinvariant.setPhase remaining ⟨hmemory, ?_, nofun, nofun⟩
      intro hzero id hid other date hother
      obtain ⟨columns, hcolumns⟩ := hrow hid
      obtain ⟨others, hothers⟩ := hrow hother
      rcases hfree.zero hzero columns hcolumns with hhas | ⟨-, hle⟩
      · exact absurd (hrowInMemory hcolumns hhas) (hmemory _ _)
      · exact hle date others hothers
    | some latest =>
      dsimp only
      split_ifs with hfull hfind
      · exact hinvariant.setPhase remaining
          ⟨hfree.full latest hlatest hfull, nofun⟩
      · -- the latest bucket has room, so every bucket in memory starts after the message
        have hlate : ∀ item ∈ state.heap streamPart, minTimestamp < item.dateCreate := by
          rcases hcoherent.findBucketId_eq_none hlatest hfind with ⟨hfull', -⟩ | hlate
          · exact absurd hfull' hfull
          · exact hlate
        have hmemory : ∀ id, ¬ InMemory state id ⟨streamPart, minTimestamp⟩ := by
          intro id hid
          exact lt_irrefl _ (hlate _ ((inMemory_iff_mem_heap hcoherent.toHeapCoherent).mp hid))
        refine hinvariant.setPhase remaining ⟨hmemory, ?_, nofun, nofun⟩
        rintro hzero id (hid | ⟨columns, hcolumns, -⟩)
        · exact hmemory id (hzero ▸ hid)
        · rcases hfree.zero hzero columns hcolumns with hhas | ⟨hnone, -⟩
          · exact hmemory columns.id (hzero ▸ hrowInMemory hcolumns hhas)
          · rw [hlatest] at hnone
            cases hnone
      · exact hinvariant.setPhase remaining trivial

/-- A lookup of a newest row that answers with a bucket: the bucket has a row, its date satisfies
the clause, and no row that does is newer. -/
theorem newest_some {now : ℤ} {streamPart : StreamPart} {timestamp : Option ℤ} {bucket : Bucket}
    (hanswer : (getLastBuckets options now state.table streamPart 1 timestamp).head? =
      some bucket) :
    Answers state streamPart bucket ∧ lastBucketsClause timestamp bucket.dateCreate = true ∧
      ∀ date columns, state.table.get? ⟨streamPart, date⟩ = some columns →
        lastBucketsClause timestamp date = true → date ≤ bucket.dateCreate := by
  rw [head?_getLastBuckets] at hanswer
  obtain ⟨row, hrow, rfl⟩ := Option.map_eq_some_iff.mp hanswer
  obtain ⟨hselected, hnewest⟩ := BucketTable.newest?_eq_some hrow
  obtain ⟨hget, hclause⟩ := BucketTable.mem_select.mp hselected
  refine ⟨⟨rfl, rfl, Or.inr ⟨row.columns, hget, rfl⟩⟩, hclause, fun date columns hcolumns hdate ↦ ?_⟩
  exact hnewest ⟨date, columns⟩ (BucketTable.mem_select.mpr ⟨hcolumns, hdate⟩)

/-- A lookup of a newest row that answers with nothing. -/
theorem newest_none {now : ℤ} {streamPart : StreamPart} {timestamp : Option ℤ}
    (hanswer : (getLastBuckets options now state.table streamPart 1 timestamp).head? = none)
    {date : ℤ} {columns : BucketColumns}
    (hrow : state.table.get? ⟨streamPart, date⟩ = some columns) :
    lastBucketsClause timestamp date = false := by
  rw [head?_getLastBuckets, Option.map_eq_none_iff] at hanswer
  exact BucketTable.newest?_eq_none.mp hanswer date columns hrow

theorem Invariant.evaluate (hinvariant : Invariant package state) {run : CheckRun} {now : ℤ}
    (hrun : state.check = some run)
    (hevaluate : BucketManager.evaluate options state run now = some after) :
    Invariant package after := by
  obtain ⟨remaining, phase⟩ := run
  have hfacts := hinvariant.phase _ hrun
  match phase, hfacts, hevaluate with
  | .latest streamPart minTimestamp true none, ⟨hunused, _⟩, rfl =>
    refine hinvariant.setPhase remaining ⟨hunused, fun bucket hbucket ↦ ?_⟩
    exact (newest_some (Option.some.inj hbucket)).1
  | .latest streamPart minTimestamp false none, ⟨hmemory, hzero, _, _⟩, rfl =>
    refine hinvariant.setPhase remaining ⟨hmemory, hzero, ?_, ?_⟩
    · rintro hnone date id (hid | ⟨columns, hcolumns, -⟩)
      · exact hmemory id date hid
      · cases newest_none (Option.some.inj hnone) hcolumns
    · intro bucket hbucket
      obtain ⟨hanswers, -, hnewest⟩ := newest_some (Option.some.inj hbucket)
      refine ⟨hanswers, ?_⟩
      rintro id date (hid | ⟨columns, hcolumns, -⟩)
      · exact absurd hid (hmemory id date)
      · exact hnewest date columns hcolumns rfl
  | .atTimestamp streamPart minTimestamp none, ⟨hmemory, hzero, _, _⟩, rfl =>
    -- a row with the date of the message satisfies the clause, whatever the timestamp is
    have hclause : lastBucketsClause (some minTimestamp) minTimestamp = true :=
      decide_eq_true fun _ ↦ le_rfl
    refine hinvariant.setPhase remaining ⟨hmemory, hzero, ?_, ?_⟩
    · rintro hnone id (hid | ⟨columns, hcolumns, -⟩)
      · exact hmemory id hid
      · have hfalse := newest_none (Option.some.inj hnone) hcolumns
        rw [hclause] at hfalse
        cases hfalse
    · intro bucket hbucket
      obtain ⟨hanswers, hbound, hnewest⟩ := newest_some (Option.some.inj hbucket)
      refine ⟨hanswers, or_iff_not_imp_left.mpr fun hne ↦ ?_⟩
      by_cases hminTimestamp : minTimestamp = 0
      · exact hminTimestamp ▸ hzero hminTimestamp
      · rintro id (hid | ⟨columns, hcolumns, -⟩)
        · exact hmemory id hid
        · have hle := of_decide_eq_true hbound hminTimestamp
          exact hne (le_antisymm hle (hnewest _ _ hcolumns hclause))

/-- A bucket that a lookup returned is loaded. -/
theorem Sound.pushBucket (hsound : Sound package state) {streamPart : StreamPart} {bucket : Bucket}
    (hanswers : Answers state streamPart bucket) (hnew : state.buckets.get? bucket.id = none) :
    Sound package (pushBucket package state bucket) := by
  refine ⟨hsound.coherent.pushBucket hnew hanswers.stored_eq,
    hanswers.named_pushBucket hsound.named hnew, fun items hitems ↦ ?_⟩
  exact (hsound.updating items hitems).mono
    (fun hmemory ↦ (inMemory_pushBucket hnew).mpr (Or.inl hmemory)) fun hrow ↦ ⟨_, hrow⟩

/-- A bucket is created with a fresh id and a date that is not in use. -/
theorem Sound.insertBucket (hsound : Sound package state) {streamPart : StreamPart}
    {minTimestamp : ℤ} {id : BucketId} (now : ℤ) (hfresh : id ∉ state.usedIds)
    (hunused : Unused state streamPart minTimestamp) :
    Sound package (insertBucket package options state streamPart minTimestamp id now) := by
  have hnew := hsound.named.get?_eq_none hfresh
  refine ⟨?_, named_insertBucket hsound.named hfresh hunused, fun items hitems ↦ ?_⟩
  · have hcoherent : Coherent package { state with usedIds := id :: state.usedIds } :=
      hsound.coherent.congr rfl (fun _ ↦ rfl) fun _ columns hrow ↦ ⟨columns, hrow⟩
    exact hcoherent.pushBucket hnew rfl
  · refine (hsound.updating items hitems).mono (fun hmemory ↦ ?_) fun hrow ↦ ⟨_, hrow⟩
    exact (inMemory_pushBucket hnew).mpr (Or.inl hmemory)

/-- A bucket that was loaded, as the only one of the stream part in memory, and in which the message
still finds no place starts at another timestamp, unless it is almost full. -/
theorem Sound.ne_of_findBucketId_eq_none (hsound : Sound package state) {streamPart : StreamPart}
    {bucket : Bucket} {minTimestamp : ℤ} (hanswers : Answers state streamPart bucket)
    (hnew : state.buckets.get? bucket.id = none)
    (hmemory : ∀ id date, ¬ InMemory state id ⟨streamPart, date⟩)
    (hfind : findBucketId (BucketManager.pushBucket package state bucket) streamPart minTimestamp =
      none)
    (hroom : ¬ (bucket.dateCreate = minTimestamp ∧ bucket.isAlmostFull = true)) :
    minTimestamp ≠ bucket.dateCreate := by
  have hpushed := hsound.pushBucket hanswers hnew
  intro heq
  have hheap : state.heap bucket.streamPart = [] := by
    refine List.eq_nil_iff_forall_not_mem.mpr fun item hitem ↦ ?_
    rw [hanswers.streamPart_eq] at hitem
    exact hmemory _ _ ((inMemory_iff_mem_heap hsound.coherent.toHeapCoherent).mpr hitem)
  have hlatest : getLatestInMemoryBucket (BucketManager.pushBucket package state bucket)
      bucket.streamPart = some bucket := latest_pushBucket_of_nil hheap
  rw [hanswers.streamPart_eq] at hlatest
  rcases hpushed.coherent.findBucketId_eq_none hlatest hfind with ⟨hfull, -⟩ | hlate
  · exact hroom ⟨heq.symm, hfull⟩
  · obtain ⟨-, -, rest, hfirst⟩ := hpushed.coherent.latest_eq_some hlatest
    have hlt := hlate _ (hfirst ▸ List.mem_cons_self)
    exact lt_irrefl _ (heq ▸ hlt)

theorem Invariant.resumeLatest (hinvariant : Invariant package state)
    {remaining : List StreamPart} {streamPart : StreamPart} {minTimestamp : ℤ}
    {insertNewBucket : Bool} {foundBucket : Option Bucket} {id : BucketId} (now : ℤ)
    (hrun : state.check =
      some ⟨remaining, .latest streamPart minTimestamp insertNewBucket (some foundBucket)⟩)
    (hfresh : id ∉ state.usedIds)
    (hroom : ∀ found, insertNewBucket = false → foundBucket = some found →
      ¬ (found.dateCreate = minTimestamp ∧ found.isAlmostFull = true)) :
    Invariant package (BucketManager.resumeLatest package options state remaining streamPart
      minTimestamp insertNewBucket foundBucket id now) := by
  have hsound := hinvariant.toSound
  have hfacts := hinvariant.phase _ hrun
  unfold BucketManager.resumeLatest
  cases insertNewBucket with
  | true =>
    obtain ⟨hunused, hanswer⟩ := hfacts
    cases foundBucket with
    | none => exact (hsound.insertBucket now hfresh hunused).setPhase remaining trivial
    | some bucket =>
      have hanswers := hanswer bucket rfl
      cases hhas : state.buckets.has bucket.id with
      | true =>
        simp only [checkFoundBuckets, hhas, if_true]
        exact (hsound.insertBucket now hfresh hunused).setPhase remaining trivial
      | false =>
        have hnew : state.buckets.get? bucket.id = none := by simpa [OrderedMap.has] using hhas
        simp only [checkFoundBuckets, hhas, Bool.false_eq_true, if_false, if_true]
        refine ((hsound.pushBucket hanswers hnew).insertBucket now hfresh ?_).setPhase remaining
          trivial
        exact fun other hother ↦ hunused other ((hanswers.known_pushBucket hnew).mp hother)
  | false =>
    obtain ⟨hmemory, hzero, hnone, hanswer⟩ := hfacts
    cases foundBucket with
    | none =>
      exact (hsound.insertBucket now hfresh (hnone rfl minTimestamp)).setPhase remaining trivial
    | some bucket =>
      obtain ⟨hanswers, hnewest⟩ := hanswer bucket rfl
      have hhas : state.buckets.has bucket.id = false := by
        rw [← Bool.not_eq_true]
        exact fun hhas ↦ hmemory _ _ (hsound.named.inMemory_of_has hanswers.known hhas)
      have hnew : state.buckets.get? bucket.id = none := by simpa [OrderedMap.has] using hhas
      have hpushed := hsound.pushBucket hanswers hnew
      simp only [checkFoundBuckets, hhas, Bool.false_eq_true, if_false]
      split_ifs with hfind
      · -- the bucket that was loaded is the only one in memory, and it is not of the same date
        have hinMemory : ∀ {other date},
            InMemory (BucketManager.pushBucket package state bucket) other ⟨streamPart, date⟩ →
              date = bucket.dateCreate := by
          intro other date hother
          rcases (inMemory_pushBucket hnew).mp hother with hold | ⟨-, hkey⟩
          · exact absurd hold (hmemory other date)
          · exact (BucketKey.mk.inj hkey).2
        have hne : minTimestamp ≠ bucket.dateCreate :=
          hsound.ne_of_findBucketId_eq_none hanswers hnew hmemory hfind (hroom bucket rfl rfl)
        refine hpushed.setPhase remaining ⟨?_, ?_, by rintro ⟨⟩, by rintro _ ⟨⟩⟩
        · exact fun other hother ↦ hne (hinMemory hother)
        · intro hminTimestamp other hother
          have hother := (hanswers.known_pushBucket hnew).mp hother
          have hle := hnewest other 0 hother
          have hge := hzero hminTimestamp other hother _ _ hanswers.known
          exact hne (hminTimestamp.trans (le_antisymm hle hge))
      · exact hpushed.setPhase remaining trivial

theorem Invariant.resumeAtTimestamp (hinvariant : Invariant package state)
    {remaining : List StreamPart} {streamPart : StreamPart} {minTimestamp : ℤ}
    {foundBucket : Option Bucket} {id : BucketId} (now : ℤ)
    (hrun : state.check =
      some ⟨remaining, .atTimestamp streamPart minTimestamp (some foundBucket)⟩)
    (hfresh : id ∉ state.usedIds) :
    Invariant package (BucketManager.resumeAtTimestamp package options state remaining streamPart
      minTimestamp foundBucket id now) := by
  have hsound := hinvariant.toSound
  obtain ⟨hmemory, -, hnone, hanswer⟩ := hinvariant.phase _ hrun
  unfold BucketManager.resumeAtTimestamp
  cases foundBucket with
  | none => exact (hsound.insertBucket now hfresh (hnone rfl)).setPhase remaining trivial
  | some bucket =>
    obtain ⟨hanswers, hdate⟩ := hanswer bucket rfl
    cases hhas : state.buckets.has bucket.id with
    | true =>
      simp only [checkFoundBuckets, hhas, if_true]
      refine (hsound.insertBucket now hfresh (hdate.resolve_left fun heq ↦ ?_)).setPhase remaining
        trivial
      refine hmemory bucket.id ?_
      rw [← heq]
      exact hsound.named.inMemory_of_has hanswers.known hhas
    | false =>
      have hnew : state.buckets.get? bucket.id = none := by simpa [OrderedMap.has] using hhas
      simp only [checkFoundBuckets, hhas, Bool.false_eq_true, if_false]
      exact (hsound.pushBucket hanswers hnew).setPhase remaining trivial

/-! ### Runs -/

/-- A manager right after its creation, on a table whose rows have different ids. -/
structure Start (state : State) : Prop where
  buckets : state.buckets = OrderedMap.empty
  streamParts : state.streamParts = OrderedMap.empty
  check : state.check = none
  store : state.store = none
  handedOut : state.handedOut = []
  ids_unique : ∀ {key other columns others}, state.table.get? key = some columns →
    state.table.get? other = some others → columns.id = others.id → key = other
  used : ∀ {key columns}, state.table.get? key = some columns → columns.id ∈ state.usedIds

theorem Start.inTable (hstart : Start state) {id : BucketId} {key : BucketKey}
    (hknown : Known state id key) : InTable state id key := by
  rcases hknown with ⟨bucket, hbucket, -⟩ | htable
  · rw [hstart.buckets, OrderedMap.get?_empty] at hbucket
    cases hbucket
  · exact htable

theorem Start.invariant (hstart : Start state) : Invariant package state := by
  refine ⟨⟨⟨HeapCoherent.of_empty hstart.buckets hstart.streamParts, fun {id bucket} hget ↦ ?_⟩,
    ⟨?_, ?_, ?_, ?_⟩, fun items hitems ↦ ?_⟩, fun run hrun ↦ ?_⟩
  · rw [hstart.buckets, OrderedMap.get?_empty] at hget
    cases hget
  · intro id other key hid hother
    obtain ⟨columns, hcolumns, rfl⟩ := hstart.inTable hid
    obtain ⟨others, hothers, rfl⟩ := hstart.inTable hother
    rw [Option.some.inj (hcolumns.symm.trans hothers)]
  · intro id key other hkey hother
    obtain ⟨columns, hcolumns, rfl⟩ := hstart.inTable hkey
    obtain ⟨others, hothers, hid⟩ := hstart.inTable hother
    exact hstart.ids_unique hcolumns hothers hid.symm
  · intro id key hknown
    obtain ⟨columns, hcolumns, rfl⟩ := hstart.inTable hknown
    exact hstart.used hcolumns
  · intro part id hmem
    rw [hstart.handedOut] at hmem
    cases hmem
  · rw [hstart.store] at hitems
    cases hitems
  · rw [hstart.check] at hrun
    cases hrun

/-- Every step that creates no bucket with a date in use keeps the invariant. -/
theorem Invariant.step {event : Event} (hinvariant : Invariant package state)
    (hfree : DatesFree state event)
    (hstep : BucketManager.step package options state event = some after) :
    Invariant package after := by
  cases event with
  | getBucketId streamPart timestamp =>
    cases hstep
    exact hinvariant.getBucketId streamPart timestamp
  | incrementBucket bucketId size now =>
    cases hstep
    exact hinvariant.incrementBucket bucketId size now
  | beginCheck =>
    simp only [BucketManager.step] at hstep
    split at hstep
    · cases hstep
      exact hinvariant.setPhase _ trivial
    · cases hstep
  | takeUp =>
    simp only [BucketManager.step] at hstep
    split at hstep
    · rename_i streamPart remaining hrun
      cases hstep
      exact hinvariant.takeUp remaining fun minTimestamp hmin ↦
        hfree streamPart remaining minTimestamp hrun hmin
    · cases hstep
      exact hinvariant.endCheck
    · cases hstep
  | evaluate now =>
    obtain ⟨run, hrun, hevaluate⟩ := Option.bind_eq_some_iff.mp hstep
    exact hinvariant.evaluate hrun hevaluate
  | resume id now =>
    simp only [BucketManager.step] at hstep
    split_ifs at hstep with hfresh
    obtain ⟨⟨remaining, phase⟩, hrun, hresume⟩ := Option.bind_eq_some_iff.mp hstep
    rcases phase with _ | ⟨streamPart, minTimestamp, _, _ | found⟩ | ⟨_, _, _ | found⟩ <;>
      cases hresume
    · refine hinvariant.resumeLatest now hrun hfresh ?_
      rintro bucket rfl rfl
      exact hfree remaining streamPart minTimestamp bucket hrun
    · exact hinvariant.resumeAtTimestamp now hrun hfresh
  | failLookup =>
    simp only [BucketManager.step] at hstep
    split at hstep
    · cases hstep
      exact hinvariant.endCheck
    · cases hstep
      exact hinvariant.endCheck
    · cases hstep
  | beginStore =>
    simp only [BucketManager.step] at hstep
    split at hstep
    · cases hstep
      refine hinvariant.of_keeps (Keeps.of_same rfl rfl rfl)
        (hinvariant.coherent.congr rfl (fun _ ↦ rfl) fun _ columns hrow ↦ ⟨columns, hrow⟩) rfl ?_
        fun run hrun ↦ hinvariant.phase run hrun
      rintro items ⟨⟩
      exact (updating_beginStore hinvariant.coherent).mono (fun hmemory ↦ hmemory)
        fun hrow ↦ ⟨_, hrow⟩
    · cases hstep
  | applyUpdate index =>
    obtain ⟨items, hstore, hitems⟩ := Option.bind_eq_some_iff.mp hstep
    obtain ⟨item, hitem, rfl⟩ := Option.map_eq_some_iff.mp hitems
    exact hinvariant.applyUpdate hstore hitem
  | settleUpdate index fulfilled =>
    obtain ⟨items, hstore, hitems⟩ := Option.bind_eq_some_iff.mp hstep
    obtain ⟨item, hitem, hsettle⟩ := Option.bind_eq_some_iff.mp hitems
    split_ifs at hsettle with hsettles
    cases hsettle
    exact hinvariant.settleUpdate hstore hitem hsettles.2
  | endStore now =>
    obtain ⟨items, hstore, hend⟩ := Option.bind_eq_some_iff.mp hstep
    split_ifs at hend with hsettled
    cases hend
    exact hinvariant.endStore hstore now

theorem invariant_of_reachable
    (hreachable : Transition.Reachable (BucketManager.step package options) DatesFree Start
      state) : Invariant package state :=
  hreachable.invariant (fun _ hstart ↦ hstart.invariant)
    fun _ _ _ _ hinvariant hfree hstep ↦ hinvariant.step hfree hstep

/-! ### Unique dates and reachable ids -/

/-- No row loses its id in the next step. -/
def RowsKeepIds (package : HeapPackage) (options : BucketManagerOptions) (state : State) : Prop :=
  ∀ event after, BucketManager.step package options state event = some after →
    ∀ key columns, state.table.get? key = some columns →
      ∃ others, after.table.get? key = some others ∧ others.id = columns.id

/-- The id is that of a row, or of a bucket in memory that the next store writes. -/
def ReachableId (state : State) (streamPart : StreamPart) (id : BucketId) : Prop :=
  ∃ date, InTable state id ⟨streamPart, date⟩ ∨ ∃ bucket, state.buckets.get? id = some bucket ∧
    bucket.stored = false ∧ bucket.streamPart = streamPart ∧ bucket.dateCreate = date

/-- The array of a heap as long as it has at most three elements: a new element either becomes the
first, and the first goes to the end, or goes to the end itself. -/
def rootedHeap : HeapPackage where
  push heap item :=
    match heap with
    | [] => [item]
    | first :: rest =>
      if first.dateCreate < item.dateCreate then item :: (rest ++ [first])
      else first :: (rest ++ [item])
  Ordered heap := ∀ first rest, heap = first :: rest →
    ∀ item ∈ rest, item.dateCreate ≤ first.dateCreate
  ordered_nil := nofun
  ordered_push := by
    intro heap item hordered
    cases heap with
    | nil =>
      rintro _ _ ⟨⟩
      exact nofun
    | cons first rest =>
      have hrest := hordered first rest rfl
      dsimp only
      split_ifs with hnewer
      · rintro _ _ ⟨⟩ other hother
        rcases List.mem_append.mp hother with hother | hother
        · exact (hrest other hother).trans hnewer.le
        · rw [List.mem_singleton.mp hother]
          exact hnewer.le
      · rintro _ _ ⟨⟩ other hother
        rcases List.mem_append.mp hother with hother | hother
        · exact hrest other hother
        · rw [List.mem_singleton.mp hother]
          exact not_lt.mp hnewer
  perm_push := by
    intro heap item
    cases heap with
    | nil => exact List.Perm.refl _
    | cons first rest =>
      dsimp only
      split_ifs
      · exact (List.perm_append_singleton first rest).cons item
      · refine ((List.perm_append_singleton item rest).cons first).trans ?_
        exact List.Perm.swap item first rest
  head_newest := fun hordered ↦ hordered _ _ rfl

/-- The stream part of the runs below. -/
def stream : StreamPart := ⟨"stream", 0, by decide⟩

/-- A manager on an empty table. -/
def emptyManager : State where
  buckets := OrderedMap.empty
  streamParts := OrderedMap.empty
  check := none
  store := none
  table := OrderedMap.empty
  usedIds := []
  handedOut := []

/-- A manager on a table with one bucket, which one more record makes almost full. -/
def newManager : State where
  buckets := OrderedMap.empty
  streamParts := OrderedMap.empty
  check := none
  store := none
  table := OrderedMap.empty.set ⟨stream, 1000⟩ ⟨"first", 349999, 0⟩
  usedIds := ["first"]
  handedOut := []

theorem start_newManager : Start newManager := by
  have hrow : ∀ {key columns}, newManager.table.get? key = some columns →
      key = ⟨stream, 1000⟩ ∧ columns.id = "first" := by
    intro key columns hcolumns
    have hmem := OrderedMap.get?_eq_some_iff.mp hcolumns
    have heq : (key, columns) = (⟨stream, 1000⟩, ⟨"first", 349999, 0⟩) := List.mem_singleton.mp hmem
    rw [Prod.mk.injEq] at heq
    exact ⟨heq.1, heq.2 ▸ rfl⟩
  refine ⟨rfl, rfl, rfl, rfl, rfl, fun hkey hother _ ↦ ?_, fun hkey ↦ ?_⟩
  · exact (hrow hkey).1.trans (hrow hother).1.symm
  · rw [(hrow hkey).2]
    exact List.mem_singleton_self _

/-- One message waits, the check loads the bucket, and the message fills it; then a message with
the given timestamp waits, and the check creates a bucket for it. -/
def fillAndWait (timestamp : ℤ) : List Event :=
  [.getBucketId stream 1000, .beginCheck, .takeUp, .evaluate 0, .resume "second" 0, .takeUp,
    .getBucketId stream 1000, .incrementBucket "first" 10 0,
    .getBucketId stream timestamp, .beginCheck, .takeUp, .evaluate 0, .resume "second" 0, .takeUp,
    .beginStore, .applyUpdate 0]

/-- The rest of the store. -/
def restOfStore : List Event :=
  [.applyUpdate 1, .settleUpdate 0 true, .settleUpdate 1 true, .endStore 100000]

/-- Where a run with the default options ends. -/
def runOf (events : List Event) : Option State :=
  Transition.run (BucketManager.step rootedHeap defaultBucketManagerOptions) newManager events

/-- A check of the condition on a step, for timestamps other than zero. -/
def checkFree (state : State) : Event → Bool
  | .takeUp =>
    match state.check with
    | some ⟨streamPart :: _, .between⟩ =>
      match (state.streamParts.get? streamPart).bind StreamPartState.minTimestamp with
      | some minTimestamp => minTimestamp ≠ 0 ∧
        ((getLatestInMemoryBucket state streamPart).all (fun latest ↦ !latest.isAlmostFull) ∨
          state.table.get? ⟨streamPart, minTimestamp⟩ = none ∧
            state.buckets.values.all fun bucket ↦ bucket.dateCreate ≠ minTimestamp)
      | none => true
    | _ => true
  | .resume _ _ =>
    match state.check with
    | some ⟨_, .latest _ _ false (some (some found))⟩ => !found.isAlmostFull
    | _ => true
  | _ => true

theorem datesFree_of_checkFree (state : State) (event : Event)
    (hcheck : checkFree state event = true) : DatesFree state event := by
  cases event with
  | takeUp =>
    intro streamPart remaining minTimestamp hrun hmin
    simp only [checkFree, hrun, hmin, decide_eq_true_eq] at hcheck
    obtain ⟨hne, hfree⟩ := hcheck
    refine ⟨fun latest hlatest hfull ↦ ?_, fun hzero ↦ absurd hzero hne⟩
    rcases hfree with hroom | ⟨hrow, hdates⟩
    · rw [hlatest, Option.all_some, hfull] at hroom
      cases hroom
    · rintro id (⟨bucket, hbucket, hkey⟩ | ⟨columns, hcolumns, -⟩)
      · have hvalue : bucket ∈ state.buckets.values :=
          List.mem_map.mpr ⟨(id, bucket), OrderedMap.get?_eq_some_iff.mp hbucket, rfl⟩
        have hdate := of_decide_eq_true (List.all_eq_true.mp hdates bucket hvalue)
        exact hdate (BucketKey.mk.inj hkey).2.symm
      · rw [hrow] at hcolumns
        cases hcolumns
  | resume id now =>
    rintro remaining streamPart minTimestamp found hrun ⟨-, hfull⟩
    simp only [checkFree, hrun, hfull] at hcheck
    cases hcheck
  | _ => trivial

end PomboStorageNode.Storage.BucketDates
