import PomboStorageNode.Storage.BucketManager

/-!
# Which buckets the table lists, or will list

A row can be read only if the table lists its bucket. The manager writes the row of a bucket when
the counters changed since it last did so, and takes an update that reached the table for what
stays there. `Held` says of an id that the table lists it, or that the bucket is in memory and no
update with its present counters has reached the table, so that it is written again (`Unwritten`).

`Tidy` is what the manager keeps of its own books whatever happens to the rows of the table, and
`held_step` says that no step of the manager ends a holding, unless an update replaces the id of
another bucket.
-/

set_option autoImplicit false

namespace PomboStorageNode.Storage.BucketUpdates

open Library Tables BucketManager

variable {package : HeapPackage} {options : BucketManagerOptions} {state after : State}

/-! ### The books of the manager -/

/-- The updates that are under way are those of buckets in memory, with counters that the buckets
have or had; a fulfilled one has reached the table. -/
def Current (state : State) (items : List StoreItem) : Prop :=
  ∀ item ∈ items, (item.fulfilled = some true → item.applied = true) ∧ ∃ bucket,
    state.buckets.get? item.columns.id = some bucket ∧
      item.key = ⟨bucket.streamPart, bucket.dateCreate⟩ ∧ item.columns.records ≤ bucket.records

/-- The heaps fit the buckets, every id in memory, in the table or in an answer was made before, and
the updates are current. -/
structure Tidy (package : HeapPackage) (state : State) : Prop where
  heaps : HeapCoherent package state
  memory_used : ∀ {id bucket}, state.buckets.get? id = some bucket → id ∈ state.usedIds
  rows_used : ∀ {key columns}, state.table.get? key = some columns → columns.id ∈ state.usedIds
  answer_used : ∀ {run streamPart bucket}, state.check = some run →
    answerOf run.phase = some (streamPart, some bucket) → bucket.id ∈ state.usedIds
  current : ∀ {items}, state.store = some items → Current state items

/-- Updates stay current while the buckets stay in memory and their counters do not fall. -/
theorem Current.mono {items : List StoreItem} (hcurrent : Current state items)
    (hmemory : ∀ {id bucket}, state.buckets.get? id = some bucket → ∃ changed,
      after.buckets.get? id = some changed ∧ changed.streamPart = bucket.streamPart ∧
        changed.dateCreate = bucket.dateCreate ∧ bucket.records ≤ changed.records) :
    Current after items := by
  intro item hitem
  obtain ⟨hfulfilled, bucket, hbucket, hkey, hrecords⟩ := hcurrent item hitem
  obtain ⟨changed, hchanged, hpart, hdate, hle⟩ := hmemory hbucket
  refine ⟨hfulfilled, changed, hchanged, ?_, hrecords.trans hle⟩
  rw [hkey, hpart, hdate]

/-- The check moves on without touching a bucket. -/
theorem Tidy.of_check (htidy : Tidy package state) (hbuckets : after.buckets = state.buckets)
    (hheap : ∀ part, after.heap part = state.heap part) (htable : after.table = state.table)
    (hused : after.usedIds = state.usedIds) (hstore : after.store = state.store)
    (hanswer : ∀ {run streamPart bucket}, after.check = some run →
      answerOf run.phase = some (streamPart, some bucket) → bucket.id ∈ state.usedIds) :
    Tidy package after := by
  refine ⟨htidy.heaps.congr hbuckets hheap, ?_, ?_, ?_, fun {items} hitems ↦ ?_⟩
  · rw [hbuckets, hused]
    exact htidy.memory_used
  · rw [htable, hused]
    exact htidy.rows_used
  · rw [hused]
    exact hanswer
  · rw [hstore] at hitems
    refine (htidy.current hitems).mono fun {id bucket} hbucket ↦ ?_
    rw [hbuckets]
    exact ⟨bucket, hbucket, rfl, rfl, le_rfl⟩

theorem Tidy.setPhase (htidy : Tidy package state) (remaining : List StreamPart)
    {phase : CheckPhase}
    (hanswer : ∀ {streamPart bucket}, answerOf phase = some (streamPart, some bucket) →
      bucket.id ∈ state.usedIds) : Tidy package (state.setPhase remaining phase) := by
  refine htidy.of_check rfl (fun _ ↦ rfl) rfl rfl rfl ?_
  rintro run streamPart bucket ⟨⟩
  exact hanswer

theorem tidy_getBucketId (htidy : Tidy package state) (streamPart : StreamPart) (timestamp : ℤ) :
    Tidy package (getBucketId state streamPart timestamp).2 := by
  obtain ⟨hbuckets, htable, hused, hcheck, hstore, hheap, -⟩ :=
    getBucketId_frame state streamPart timestamp
  refine htidy.of_check hbuckets hheap htable hused hstore fun hrun ↦ ?_
  rw [hcheck] at hrun
  exact htidy.answer_used hrun

theorem tidy_incrementBucket (htidy : Tidy package state) (bucketId : BucketId) (size : ℕ)
    (now : ℤ) : Tidy package (incrementBucket state bucketId size now) := by
  unfold incrementBucket
  split
  · rename_i bucket hbucket
    have hget : ∀ {other found}, state.buckets.get? other = some found → ∃ changed,
        (state.buckets.set bucketId (bucket.incrementBucket size now)).get? other = some changed ∧
          changed.streamPart = found.streamPart ∧ changed.dateCreate = found.dateCreate ∧
          found.records ≤ changed.records := by
      intro other found hfound
      by_cases heq : other = bucketId
      · subst heq
        obtain rfl := Option.some.inj (hfound.symm.trans hbucket)
        exact ⟨_, OrderedMap.get?_set_self _ _ _, rfl, rfl, Nat.le_add_right _ _⟩
      · exact ⟨found, (OrderedMap.get?_set_of_ne _ _ heq).trans hfound, rfl, rfl, le_rfl⟩
    refine ⟨htidy.heaps.set_bucket hbucket rfl rfl rfl, fun {other found} hfound ↦ ?_,
      htidy.rows_used, htidy.answer_used, fun hitems ↦ (htidy.current hitems).mono hget⟩
    by_cases heq : other = bucketId
    · rw [heq]
      exact htidy.memory_used hbucket
    · rw [OrderedMap.get?_set_of_ne _ _ heq] at hfound
      exact htidy.memory_used hfound
  · exact htidy

/-- A bucket is taken into memory.
Assumes: no bucket with its id is in memory, and its id was made before. -/
theorem tidy_pushBucket (htidy : Tidy package state) {bucket : Bucket}
    (hnew : state.buckets.get? bucket.id = none) (hused : bucket.id ∈ state.usedIds) :
    Tidy package (pushBucket package state bucket) := by
  have hget : ∀ {other found}, state.buckets.get? other = some found →
      (state.buckets.set bucket.id bucket).get? other = some found := by
    intro other found hfound
    have hne : other ≠ bucket.id := fun heq ↦ absurd (heq ▸ hfound) (by rw [hnew]; exact nofun)
    exact (OrderedMap.get?_set_of_ne _ _ hne).trans hfound
  refine ⟨htidy.heaps.pushBucket hnew, fun {other found} hfound ↦ ?_, htidy.rows_used,
    htidy.answer_used, fun hitems ↦ (htidy.current hitems).mono fun hfound ↦
      ⟨_, hget hfound, rfl, rfl, le_rfl⟩⟩
  by_cases heq : other = bucket.id
  · exact heq ▸ hused
  · exact htidy.memory_used ((OrderedMap.get?_set_of_ne _ _ heq).symm.trans hfound)

/-- An id that was never used is that of no bucket in memory. -/
theorem Tidy.get?_eq_none (htidy : Tidy package state) {id : BucketId}
    (hfresh : id ∉ state.usedIds) : state.buckets.get? id = none := by
  rw [Option.eq_none_iff_forall_ne_some]
  exact fun bucket hbucket ↦ hfresh (htidy.memory_used hbucket)

theorem tidy_loads (htidy : Tidy package state) {run : CheckRun} {streamPart : StreamPart}
    {found : Option Bucket} (hrun : state.check = some run)
    (hanswer : answerOf run.phase = some (streamPart, found))
    (hloads : Loads package state found after) : Tidy package after := by
  cases hloads with
  | nothing => exact htidy
  | bucket bucket hnew => exact tidy_pushBucket htidy hnew (htidy.answer_used hrun hanswer)

theorem tidy_resume (htidy : Tidy package state) {run : CheckRun} {id : BucketId} {now : ℤ}
    (hrun : state.check = some run) (hfresh : id ∉ state.usedIds)
    (hresume : resume package options state run id now = some after) : Tidy package after := by
  obtain ⟨streamPart, minTimestamp, found, loaded, -, hanswer, hloads, hcases⟩ :=
    resume_cases hresume
  have hloaded := tidy_loads htidy hrun hanswer hloads
  rcases hcases with rfl | rfl | ⟨rfl, -⟩
  · refine Tidy.setPhase ?_ _ nofun
    have hunused := hloaded.get?_eq_none (hloads.usedIds ▸ hfresh)
    have hnamed : Tidy package { loaded with usedIds := id :: loaded.usedIds } :=
      ⟨hloaded.heaps.congr rfl fun _ ↦ rfl,
        fun hget ↦ List.mem_cons_of_mem _ (hloaded.memory_used hget),
        fun hrow ↦ List.mem_cons_of_mem _ (hloaded.rows_used hrow),
        fun hcheck hfound ↦ List.mem_cons_of_mem _ (hloaded.answer_used hcheck hfound),
        fun hitems ↦ (hloaded.current hitems).mono fun hget ↦ ⟨_, hget, rfl, rfl, le_rfl⟩⟩
    exact tidy_pushBucket hnamed hunused List.mem_cons_self
  · exact hloaded.setPhase _ nofun
  · exact hloaded.setPhase _ nofun

theorem tidy_evaluate (htidy : Tidy package state) {run : CheckRun} {now : ℤ}
    (hevaluate : evaluate options state run now = some after) : Tidy package after := by
  have hused : ∀ {streamPart timestamp bucket},
      (getLastBuckets options now state.table streamPart 1 timestamp).head? = some bucket →
        bucket.id ∈ state.usedIds := by
    intro streamPart timestamp bucket hanswer
    rw [head?_getLastBuckets] at hanswer
    obtain ⟨row, hrow, rfl⟩ := Option.map_eq_some_iff.mp hanswer
    obtain ⟨hget, -⟩ := BucketTable.mem_select.mp (BucketTable.newest?_eq_some hrow).1
    exact htidy.rows_used hget
  obtain ⟨remaining, phase⟩ := run
  match phase, hevaluate with
  | .latest _ _ _ none, rfl =>
    refine htidy.setPhase remaining fun hanswer ↦ ?_
    exact hused (Prod.mk.inj (Option.some.inj hanswer)).2
  | .atTimestamp _ _ none, rfl =>
    refine htidy.setPhase remaining fun hanswer ↦ ?_
    exact hused (Prod.mk.inj (Option.some.inj hanswer)).2

theorem takeUp_eq_setPhase (state : State) (streamPart : StreamPart)
    (remaining : List StreamPart) : ∃ phase, takeUp state streamPart remaining =
      state.setPhase remaining phase ∧ answerOf phase = none := by
  unfold takeUp
  repeat' split
  all_goals exact ⟨_, rfl, rfl⟩

theorem current_beginStore (hheaps : HeapCoherent package state) :
    Current state
      ((state.buckets.values.filter fun bucket ↦ bucket.stored = false).map updateOf) := by
  intro item hitem
  obtain ⟨bucket, hbucket, rfl⟩ := List.mem_map.mp hitem
  have hget := hheaps.values_spec.2 bucket (List.mem_filter.mp hbucket).1
  exact ⟨nofun, bucket, hget, rfl, le_rfl⟩

/-- Overwriting one update with one for the same bucket and counters keeps the updates current. -/
theorem Current.set {items : List StoreItem} {index : ℕ} {item changed : StoreItem}
    (hcurrent : Current state items) (hitem : items[index]? = some item)
    (hkey : changed.key = item.key) (hcolumns : changed.columns = item.columns)
    (hfulfilled : changed.fulfilled = some true → changed.applied = true) :
    Current state (items.set index changed) := by
  intro other hother
  rcases List.mem_or_eq_of_mem_set hother with hmem | rfl
  · exact hcurrent other hmem
  · obtain ⟨-, bucket, hbucket, hitemKey, hrecords⟩ := hcurrent item (List.mem_of_getElem? hitem)
    rw [hkey, hcolumns]
    exact ⟨hfulfilled, bucket, hbucket, hitemKey, hrecords⟩

/-- A step of the store that changes the updates and perhaps the table. -/
theorem Tidy.of_store (htidy : Tidy package state) (hbuckets : after.buckets = state.buckets)
    (hparts : after.streamParts = state.streamParts) (hused : after.usedIds = state.usedIds)
    (hcheck : after.check = state.check)
    (hrows : ∀ {key columns}, after.table.get? key = some columns → columns.id ∈ state.usedIds)
    (hcurrent : ∀ {items}, after.store = some items → Current state items) :
    Tidy package after := by
  have hheap : ∀ part, after.heap part = state.heap part := fun part ↦ by
    rw [State.heap, State.heap, hparts]
  refine ⟨htidy.heaps.congr hbuckets hheap, ?_, ?_, ?_, fun hitems ↦ ?_⟩
  · rw [hbuckets, hused]
    exact htidy.memory_used
  · rw [hused]
    exact hrows
  · rw [hcheck, hused]
    exact htidy.answer_used
  · refine (hcurrent hitems).mono fun {id bucket} hbucket ↦ ?_
    rw [hbuckets]
    exact ⟨bucket, hbucket, rfl, rfl, le_rfl⟩

theorem tidy_applyUpdate (htidy : Tidy package state) {items : List StoreItem} {index : ℕ}
    {item : StoreItem} (hstore : state.store = some items) (hitem : items[index]? = some item) :
    Tidy package { state with
      table := state.table.set item.key item.columns
      store := some (items.set index { item with applied := true }) } := by
  have hcurrent := htidy.current hstore
  refine htidy.of_store rfl rfl rfl rfl (fun {key columns} hcolumns ↦ ?_) ?_
  · by_cases heq : key = item.key
    · rw [heq, OrderedMap.get?_set_self, Option.some.injEq] at hcolumns
      obtain ⟨-, bucket, hbucket, -⟩ := hcurrent item (List.mem_of_getElem? hitem)
      exact hcolumns ▸ htidy.memory_used hbucket
    · rw [OrderedMap.get?_set_of_ne _ _ heq] at hcolumns
      exact htidy.rows_used hcolumns
  · rintro others ⟨⟩
    exact hcurrent.set hitem rfl rfl fun _ ↦ rfl

theorem tidy_endStore (htidy : Tidy package state) (items : List StoreItem) (now : ℤ) :
    Tidy package (endStore package state items now) := by
  have hsheds := sheds_endStore htidy.heaps items now
  refine ⟨hsheds.heaps, fun hbucket ↦ ?_, ?_, ?_, nofun⟩
  · obtain ⟨before, hbefore, -⟩ := hsheds.memory hbucket
    rw [hsheds.usedIds]
    exact htidy.memory_used hbefore
  · rw [hsheds.table, hsheds.usedIds]
    exact htidy.rows_used
  · rw [hsheds.check, hsheds.usedIds]
    exact htidy.answer_used

/-- Every step keeps the books. -/
theorem Tidy.step {event : Event} (htidy : Tidy package state)
    (hstep : BucketManager.step package options state event = some after) :
    Tidy package after := by
  have hendCheck : Tidy package { state with check := none } :=
    htidy.of_check rfl (fun _ ↦ rfl) rfl rfl rfl (by rintro _ _ _ ⟨⟩)
  cases event with
  | getBucketId streamPart timestamp =>
    cases hstep
    exact tidy_getBucketId htidy streamPart timestamp
  | incrementBucket bucketId size now =>
    cases hstep
    exact tidy_incrementBucket htidy bucketId size now
  | beginCheck =>
    simp only [BucketManager.step] at hstep
    split at hstep <;> cases hstep
    exact htidy.setPhase _ (by rintro _ _ ⟨⟩)
  | takeUp =>
    simp only [BucketManager.step] at hstep
    split at hstep <;> cases hstep
    · rename_i streamPart remaining hrun
      obtain ⟨phase, hafter, hnone⟩ := takeUp_eq_setPhase state streamPart remaining
      rw [hafter]
      refine htidy.setPhase remaining fun hanswer ↦ ?_
      rw [hnone] at hanswer
      cases hanswer
    · exact hendCheck
  | evaluate now =>
    obtain ⟨run, hrun, hevaluate⟩ := Option.bind_eq_some_iff.mp hstep
    exact tidy_evaluate htidy hevaluate
  | resume id now =>
    simp only [BucketManager.step] at hstep
    split_ifs at hstep with hfresh
    obtain ⟨run, hrun, hresume⟩ := Option.bind_eq_some_iff.mp hstep
    exact tidy_resume htidy hrun hfresh hresume
  | failLookup =>
    simp only [BucketManager.step] at hstep
    split at hstep <;> cases hstep
    · exact hendCheck
    · exact hendCheck
  | beginStore =>
    simp only [BucketManager.step] at hstep
    split at hstep <;> cases hstep
    refine htidy.of_store rfl rfl rfl rfl htidy.rows_used ?_
    rintro items ⟨⟩
    exact current_beginStore htidy.heaps
  | applyUpdate index =>
    obtain ⟨items, hstore, hitems⟩ := Option.bind_eq_some_iff.mp hstep
    obtain ⟨item, hitem, rfl⟩ := Option.map_eq_some_iff.mp hitems
    exact tidy_applyUpdate htidy hstore hitem
  | settleUpdate index fulfilled =>
    obtain ⟨items, hstore, hitems⟩ := Option.bind_eq_some_iff.mp hstep
    obtain ⟨item, hitem, hsettle⟩ := Option.bind_eq_some_iff.mp hitems
    split_ifs at hsettle with hsettles
    cases hsettle
    refine htidy.of_store rfl rfl rfl rfl htidy.rows_used ?_
    rintro others ⟨⟩
    exact (htidy.current hstore).set hitem rfl rfl fun hdone ↦
      hsettles.2 (Option.some.inj hdone)
  | endStore now =>
    obtain ⟨items, hstore, hend⟩ := Option.bind_eq_some_iff.mp hstep
    split_ifs at hend
    cases hend
    exact tidy_endStore htidy items now

/-! ### Ids that are held -/

/-- The table lists a bucket of the stream part under the id. -/
def Listed (state : State) (streamPart : StreamPart) (id : BucketId) : Prop :=
  ∃ date columns, state.table.get? ⟨streamPart, date⟩ = some columns ∧ columns.id = id

/-- The bucket is in memory with counters that no update has brought to the table. -/
def Unwritten (state : State) (streamPart : StreamPart) (id : BucketId) : Prop :=
  ∃ bucket, state.buckets.get? id = some bucket ∧ bucket.streamPart = streamPart ∧
    bucket.stored = false ∧ ∀ items item, state.store = some items → item ∈ items →
      item.columns.id = id → item.applied = true → item.columns.records ≠ bucket.records

/-- The table lists the id, or will list it after the next update. -/
def Held (state : State) (streamPart : StreamPart) (id : BucketId) : Prop :=
  Listed state streamPart id ∨ Unwritten state streamPart id

/-- An update that reaches the table does not replace the id of another bucket. -/
def ReplacesNone (state : State) : Event → Prop
  | .applyUpdate index => ∀ items item columns, state.store = some items →
    items[index]? = some item → state.table.get? item.key = some columns →
    columns.id = item.columns.id
  | _ => True

variable {streamPart : StreamPart} {id : BucketId}

/-- A holding outlasts every step that leaves the rows, the updates and the bucket alone. -/
theorem Held.of_same (hheld : Held state streamPart id) (htable : after.table = state.table)
    (hstore : after.store = state.store)
    (hmemory : ∀ {bucket}, state.buckets.get? id = some bucket →
      after.buckets.get? id = some bucket) : Held after streamPart id := by
  rcases hheld with ⟨date, columns, hrow, hid⟩ | ⟨bucket, hbucket, hpart, hstored, hunwritten⟩
  · exact Or.inl ⟨date, columns, htable ▸ hrow, hid⟩
  · refine Or.inr ⟨bucket, hmemory hbucket, hpart, hstored, ?_⟩
    rw [hstore]
    exact hunwritten

/-- A bucket that was just incremented is unwritten: every update under way has older counters. -/
theorem unwritten_incrementBucket (htidy : Tidy package state) {bucket : Bucket}
    (hbucket : state.buckets.get? id = some bucket) (hpart : bucket.streamPart = streamPart)
    (size : ℕ) (now : ℤ) : Unwritten (incrementBucket state id size now) streamPart id := by
  simp only [incrementBucket, hbucket]
  refine ⟨_, OrderedMap.get?_set_self _ _ _, hpart, rfl, ?_⟩
  intro items item hitems hitem hid happlied
  obtain ⟨-, found, hfound, -, hrecords⟩ := htidy.current hitems item hitem
  rw [hid, hbucket, Option.some.injEq] at hfound
  subst hfound
  exact (Nat.lt_succ_of_le hrecords).ne

theorem held_incrementBucket (htidy : Tidy package state) (hheld : Held state streamPart id)
    (bucketId : BucketId) (size : ℕ) (now : ℤ) :
    Held (incrementBucket state bucketId size now) streamPart id := by
  cases hbucket : state.buckets.get? bucketId with
  | none =>
    simp only [incrementBucket, hbucket]
    exact hheld
  | some bucket =>
    rcases hheld with ⟨date, columns, hrow, hid⟩ | hunwritten
    · refine Or.inl ⟨date, columns, ?_, hid⟩
      simp only [incrementBucket, hbucket]
      exact hrow
    · by_cases heq : id = bucketId
      · subst heq
        obtain ⟨found, hfound, hpart, -⟩ := hunwritten
        exact Or.inr (unwritten_incrementBucket htidy hfound hpart size now)
      · refine Held.of_same (Or.inr hunwritten) ?_ ?_ fun hfound ↦ ?_ <;>
          simp only [incrementBucket, hbucket]
        exact (OrderedMap.get?_set_of_ne _ _ heq).trans hfound

theorem held_pushBucket (hheld : Held state streamPart id) {bucket : Bucket}
    (hnew : state.buckets.get? bucket.id = none) :
    Held (pushBucket package state bucket) streamPart id := by
  refine hheld.of_same rfl rfl fun {found} hfound ↦ ?_
  have hne : id ≠ bucket.id := fun heq ↦ absurd (heq ▸ hfound) (by rw [hnew]; exact nofun)
  exact (OrderedMap.get?_set_of_ne _ _ hne).trans hfound

theorem held_resume (htidy : Tidy package state) (hheld : Held state streamPart id)
    {run : CheckRun} {newId : BucketId} {now : ℤ} (hrun : state.check = some run)
    (hfresh : newId ∉ state.usedIds)
    (hresume : resume package options state run newId now = some after) :
    Held after streamPart id := by
  obtain ⟨part, minTimestamp, found, loaded, -, hanswer, hloads, hcases⟩ := resume_cases hresume
  have hloaded : Held loaded streamPart id := by
    cases hloads with
    | nothing => exact hheld
    | bucket bucket hnew => exact held_pushBucket hheld hnew
  rcases hcases with rfl | rfl | ⟨rfl, -⟩
  · have hnew : loaded.buckets.get? newId = none := by
      have hloadedTidy := tidy_loads htidy hrun hanswer hloads
      exact hloadedTidy.get?_eq_none (hloads.usedIds ▸ hfresh)
    have hnamed : Held { loaded with usedIds := newId :: loaded.usedIds } streamPart id :=
      hloaded.of_same rfl rfl fun hbucket ↦ hbucket
    have hcreated : Held (insertBucket package options loaded part minTimestamp newId now)
        streamPart id := held_pushBucket hnamed hnew
    exact hcreated.of_same rfl rfl fun hbucket ↦ hbucket
  · exact hloaded.of_same rfl rfl fun hbucket ↦ hbucket
  · exact hloaded.of_same rfl rfl fun hbucket ↦ hbucket

/-- An update that reaches the table lists its bucket, and takes no other from the list. -/
theorem held_applyUpdate (htidy : Tidy package state) (hheld : Held state streamPart id)
    {items : List StoreItem} {index : ℕ} {item : StoreItem} (hstore : state.store = some items)
    (hitem : items[index]? = some item)
    (hnone : ∀ columns, state.table.get? item.key = some columns →
      columns.id = item.columns.id) :
    Held { state with
      table := state.table.set item.key item.columns
      store := some (items.set index { item with applied := true }) } streamPart id := by
  obtain ⟨-, bucket, hbucket, hkey, -⟩ :=
    htidy.current hstore item (List.mem_of_getElem? hitem)
  rcases hheld with ⟨date, columns, hrow, hid⟩ | ⟨found, hfound, hpart, hstored, hunwritten⟩
  · refine Or.inl ⟨date, ?_⟩
    by_cases heq : (⟨streamPart, date⟩ : BucketKey) = item.key
    · refine ⟨item.columns, heq ▸ OrderedMap.get?_set_self _ _ _, ?_⟩
      rw [← hid]
      exact (hnone columns (heq ▸ hrow)).symm
    · exact ⟨columns, (OrderedMap.get?_set_of_ne _ _ heq).trans hrow, hid⟩
  · by_cases heq : item.columns.id = id
    · -- the update is that of the bucket itself
      rw [heq, hfound, Option.some.injEq] at hbucket
      subst hbucket
      refine Or.inl ⟨found.dateCreate, item.columns, ?_, heq⟩
      rw [← hpart, ← hkey]
      exact OrderedMap.get?_set_self _ _ _
    · refine Or.inr ⟨found, hfound, hpart, hstored, ?_⟩
      rintro others other ⟨⟩ hother hid happlied
      rcases List.mem_or_eq_of_mem_set hother with hmem | rfl
      · exact hunwritten items other hstore hmem hid happlied
      · exact absurd hid heq

/-- A bucket that is unwritten stays in memory as it is when the store ends. -/
theorem held_endStore (htidy : Tidy package state) (hheld : Held state streamPart id)
    {items : List StoreItem} (hstore : state.store = some items) (now : ℤ) :
    Held (endStore package state items now) streamPart id := by
  have hsheds := sheds_endStore htidy.heaps items now
  rcases hheld with ⟨date, columns, hrow, hid⟩ | ⟨bucket, hbucket, hpart, hstored, hunwritten⟩
  · exact Or.inl ⟨date, columns, hsheds.table ▸ hrow, hid⟩
  · have hnotWritten : ¬ WrittenBy items bucket := by
      rintro ⟨item, hitem, hid, hfulfilled, hrecords⟩
      have happlied := (htidy.current hstore item hitem).1 hfulfilled
      rw [htidy.heaps.id_eq hbucket] at hid
      exact hunwritten items item hstore hitem hid happlied hrecords
    refine Or.inr ⟨bucket, ?_, hpart, hstored, nofun⟩
    cases hafter : (endStore package state items now).buckets.get? id with
    | none =>
      rcases hsheds.left hbucket hafter with hmarked | hwritten
      · rw [hstored] at hmarked
        cases hmarked
      · exact absurd hwritten hnotWritten
    | some found =>
      obtain ⟨before, hbefore, hchange⟩ := hsheds.memory hafter
      obtain rfl := Option.some.inj (hbefore.symm.trans hbucket)
      rcases hchange with rfl | ⟨-, hwritten⟩
      · rfl
      · exact absurd hwritten hnotWritten

/-- No step of the manager ends a holding, unless an update replaces the id of another bucket. -/
theorem held_step {event : Event} (htidy : Tidy package state)
    (hnone : ReplacesNone state event) (hheld : Held state streamPart id)
    (hstep : BucketManager.step package options state event = some after) :
    Held after streamPart id := by
  have hendCheck : Held { state with check := none } streamPart id :=
    hheld.of_same rfl rfl fun hbucket ↦ hbucket
  cases event with
  | getBucketId part timestamp =>
    cases hstep
    obtain ⟨hbuckets, htable, -, -, hstore, -⟩ := getBucketId_frame state part timestamp
    exact hheld.of_same htable hstore fun hbucket ↦ hbuckets ▸ hbucket
  | incrementBucket bucketId size now =>
    cases hstep
    exact held_incrementBucket htidy hheld bucketId size now
  | beginCheck =>
    simp only [BucketManager.step] at hstep
    split at hstep <;> cases hstep
    exact hheld.of_same rfl rfl fun hbucket ↦ hbucket
  | takeUp =>
    simp only [BucketManager.step] at hstep
    split at hstep <;> cases hstep
    · rename_i part remaining hrun
      obtain ⟨phase, hafter, -⟩ := takeUp_eq_setPhase state part remaining
      rw [hafter]
      exact hheld.of_same rfl rfl fun hbucket ↦ hbucket
    · exact hendCheck
  | evaluate now =>
    obtain ⟨⟨remaining, phase⟩, -, hevaluate⟩ := Option.bind_eq_some_iff.mp hstep
    rcases phase with _ | ⟨_, _, _, _ | _⟩ | ⟨_, _, _ | _⟩ <;> cases hevaluate <;>
      exact hheld.of_same rfl rfl fun hbucket ↦ hbucket
  | resume newId now =>
    simp only [BucketManager.step] at hstep
    split_ifs at hstep with hfresh
    obtain ⟨run, hrun, hresume⟩ := Option.bind_eq_some_iff.mp hstep
    exact held_resume htidy hheld hrun hfresh hresume
  | failLookup =>
    simp only [BucketManager.step] at hstep
    split at hstep <;> cases hstep
    · exact hendCheck
    · exact hendCheck
  | beginStore =>
    simp only [BucketManager.step] at hstep
    split at hstep <;> cases hstep
    rcases hheld with hlisted | ⟨bucket, hbucket, hpart, hstored, -⟩
    · exact Or.inl hlisted
    · refine Or.inr ⟨bucket, hbucket, hpart, hstored, ?_⟩
      rintro items item ⟨⟩ hitem - happlied
      obtain ⟨other, -, rfl⟩ := List.mem_map.mp hitem
      cases happlied
  | applyUpdate index =>
    obtain ⟨items, hstore, hitems⟩ := Option.bind_eq_some_iff.mp hstep
    obtain ⟨item, hitem, rfl⟩ := Option.map_eq_some_iff.mp hitems
    exact held_applyUpdate htidy hheld hstore hitem fun columns hrow ↦
      hnone items item columns hstore hitem hrow
  | settleUpdate index fulfilled =>
    obtain ⟨items, hstore, hitems⟩ := Option.bind_eq_some_iff.mp hstep
    obtain ⟨item, hitem, hsettle⟩ := Option.bind_eq_some_iff.mp hitems
    split_ifs at hsettle
    cases hsettle
    rcases hheld with hlisted | ⟨bucket, hbucket, hpart, hstored, hunwritten⟩
    · exact Or.inl hlisted
    · refine Or.inr ⟨bucket, hbucket, hpart, hstored, ?_⟩
      rintro others other ⟨⟩ hother hid happlied
      rcases List.mem_or_eq_of_mem_set hother with hmem | rfl
      · exact hunwritten items other hstore hmem hid happlied
      · exact hunwritten items item hstore (List.mem_of_getElem? hitem) hid happlied
  | endStore now =>
    obtain ⟨items, hstore, hend⟩ := Option.bind_eq_some_iff.mp hstep
    split_ifs at hend
    cases hend
    exact held_endStore htidy hheld hstore now

end PomboStorageNode.Storage.BucketUpdates
