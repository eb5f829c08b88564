import PomboStorageNode.Storage.BucketUpdates
import PomboStorageNode.Storage.FetchRange
import PomboStorageNode.Storage.StoredEndpoint

/-!
# What is stored can be read

A range read finds a row through the bucket table, and the row of a bucket is written there by a
timer, later than the rows of its messages. In between the messages are stored and cannot be read.
`Accounted` is what holds all the while: the bucket of every placed message is listed, or it is in
memory with counters that are still to be written. So a range read returns exactly the rows in its
range whose bucket is listed, and what it misses is what the next store lists
(`reads_listed_rows`).

`Awaited` follows a store from its beginning: until the store ends, every bucket that was held when
it began is listed, or one of its updates is under way. When all updates have reached the table the
messages placed before are listed, and as no row leaves the bucket table, they are for ever
(`readable_after_store`).
-/

set_option autoImplicit false

namespace PomboStorageNode.Storage.ReadableMessages

open Library Tables BucketManager BucketUpdates IngestValidator StoragePlugin FetchRange

variable {package : HeapPackage} {options : BucketManagerOptions} {sdk : Sdk}
  {config : ValidationConfig}

/-! ### Rows of listed buckets -/

/-- The table lists the bucket of the row. -/
def isListed (table : BucketTable) (key : DataKey) : Bool :=
  table.entries.any fun entry ↦ entry.1.streamPart = key.streamPart ∧ entry.2.id = key.bucketId

theorem isListed_iff {table : BucketTable} {key : DataKey} : isListed table key = true ↔
    ∃ date columns, table.get? ⟨key.streamPart, date⟩ = some columns ∧
      columns.id = key.bucketId := by
  simp only [isListed, List.any_eq_true, decide_eq_true_eq, OrderedMap.get?_eq_some_iff]
  constructor
  · rintro ⟨⟨⟨part, date⟩, columns⟩, hentry, rfl, hid⟩
    exact ⟨date, columns, hentry, hid⟩
  · rintro ⟨date, columns, hentry, hid⟩
    exact ⟨_, hentry, rfl, hid⟩

/-- The rows whose bucket the table lists. -/
def listedRows (table : BucketTable) (data : StreamData) : StreamData :=
  data.filter fun row ↦ isListed table row.1

/-- A read never sees a row whose bucket is not listed. -/
theorem fetchRangeRows_filter (readOptions : BucketManagerOptions) (now : ℤ)
    (buckets : BucketTable) (data : StreamData) (request : RangeRequest) :
    fetchRangeRows readOptions now buckets data request =
      fetchRangeRows readOptions now buckets (listedRows buckets data) request := by
  obtain ⟨bucketIds, hids, -⟩ := bucketIdsInRange_spec readOptions now buckets request.streamPart
    (request.fromTimestamp - bucketLookbackMs) request.toTimestamp
  have hselect : ∀ clause, data.select request.streamPart bucketIds clause =
      (listedRows buckets data).select request.streamPart bucketIds clause := by
    intro clause
    rw [StreamData.select, StreamData.select, listedRows, OrderedMap.filter, List.filter_filter]
    refine List.filter_congr fun row _ ↦ ?_
    by_cases hrow : row.1.streamPart = request.streamPart ∧ row.1.bucketId ∈ bucketIds ∧
        clause row.1 = true
    · obtain ⟨hpart, hmem, -⟩ := id hrow
      have hlisted : isListed buckets row.1 = true :=
        isListed_iff.mpr (hpart ▸ get?_of_mem_bucketIdsInRange hids hmem)
      rw [hlisted, Bool.and_true]
    · rw [decide_eq_false hrow, Bool.false_and]
  simp only [fetchRangeRows, hids, bind, Except.bind, hselect]

/-- On tables in which the rows of listed buckets are placed for their timestamps, a request with
separate boundaries streams exactly the rows in its range whose bucket is listed. -/
theorem reads_listed {readOptions : BucketManagerOptions} {now : ℤ} {buckets : BucketTable}
    {data : StreamData} {request : RangeRequest}
    (hplaced : WellPlaced buckets (listedRows buckets data))
    (hseparate : BoundariesSeparate request) :
    ∃ rows, fetchRangeRows readOptions now buckets data request = .ok rows ∧
      rows.Perm (data.entries.filter fun row ↦
        InRange request row.1 ∧ isListed buckets row.1 = true) := by
  have hexact : StreamsExactly readOptions now buckets (listedRows buckets data) request :=
    streamsExactly_of_boundariesSeparate hplaced hseparate
  obtain ⟨rows, hrows, -, hperm⟩ := hexact
  refine ⟨rows, (fetchRangeRows_filter _ _ _ _ _).trans hrows, hperm.trans ?_⟩
  rw [listedRows, OrderedMap.filter, List.filter_filter]
  simp only [Bool.decide_and, Bool.decide_eq_true]
  exact List.Perm.refl _

/-! ### Steps of the manager -/

section Manager

variable {manager after : BucketManager.State} {event : BucketManager.Event}
  {streamPart : StreamPart} {id : BucketId}

/-- Ids and keys are one-to-one, so an update finds its own id or none. -/
theorem replacesNone_of_named (hnamed : BucketDates.Named manager) (htidy : Tidy package manager) :
    ReplacesNone manager event := by
  cases event with
  | applyUpdate index =>
    intro items item columns hstore hitem hcolumns
    obtain ⟨-, bucket, hbucket, hkey, -⟩ :=
      htidy.current hstore item (List.mem_of_getElem? hitem)
    have hupdated : BucketDates.Known manager item.columns.id item.key :=
      Or.inl ⟨bucket, hbucket, hkey⟩
    exact hnamed.id_unique (Or.inr ⟨columns, hcolumns, rfl⟩) hupdated
  | _ => trivial

/-- What is listed stays listed. -/
theorem listed_step (hnone : ReplacesNone manager event) (hlisted : Listed manager streamPart id)
    (hstep : BucketManager.step package options manager event = some after) :
    Listed after streamPart id := by
  obtain ⟨date, columns, hrow, hid⟩ := hlisted
  have htable := table_step hstep
  cases event with
  | applyUpdate index =>
    cases hupdate : appliedUpdate manager (.applyUpdate index) with
    | none =>
      rw [hupdate] at htable
      exact ⟨date, columns, htable ▸ hrow, hid⟩
    | some item =>
      rw [hupdate] at htable
      obtain ⟨items, hstore, hitem⟩ := Option.bind_eq_some_iff.mp hupdate
      by_cases heq : (⟨streamPart, date⟩ : BucketKey) = item.key
      · refine ⟨date, item.columns, ?_, ?_⟩
        · rw [htable, heq, OrderedMap.get?_set_self]
        · rw [← hid]
          exact (hnone items item columns hstore hitem (heq ▸ hrow)).symm
      · refine ⟨date, columns, ?_, hid⟩
        rw [htable, OrderedMap.get?_set_of_ne _ _ heq]
        exact hrow
  | _ => exact ⟨date, columns, htable ▸ hrow, hid⟩

/-- The events of a store. -/
def isStoreEvent : BucketManager.Event → Bool
  | .beginStore | .applyUpdate _ | .settleUpdate _ _ | .endStore _ => true
  | _ => false

theorem store_step (hother : isStoreEvent event = false)
    (hstep : BucketManager.step package options manager event = some after) :
    after.store = manager.store := by
  cases event with
  | getBucketId streamPart timestamp =>
    cases hstep
    exact (getBucketId_frame manager streamPart timestamp).2.2.2.2.1
  | incrementBucket bucketId size now =>
    cases hstep
    unfold incrementBucket
    split <;> rfl
  | takeUp =>
    simp only [BucketManager.step] at hstep
    split at hstep <;> cases hstep
    · obtain ⟨phase, hafter, -⟩ := takeUp_eq_setPhase manager _ _
      rw [hafter]
      rfl
    · rfl
  | evaluate now =>
    obtain ⟨⟨remaining, phase⟩, -, hevaluate⟩ := Option.bind_eq_some_iff.mp hstep
    rcases phase with _ | ⟨_, _, _, _ | _⟩ | ⟨_, _, _ | _⟩ <;> cases hevaluate <;> rfl
  | resume id now =>
    simp only [BucketManager.step] at hstep
    split_ifs at hstep
    obtain ⟨run, -, hresume⟩ := Option.bind_eq_some_iff.mp hstep
    obtain ⟨_, _, _, loaded, -, -, hloads, hcases⟩ := resume_cases hresume
    have hstore : loaded.store = manager.store := by cases hloads <;> rfl
    rcases hcases with rfl | rfl | ⟨rfl, -⟩ <;> exact hstore
  | beginCheck | failLookup =>
    simp only [BucketManager.step] at hstep
    split at hstep <;> cases hstep <;> rfl
  | beginStore | applyUpdate | settleUpdate | endStore => cases hother

/-! ### A store from its beginning to its last update -/

/-- The table lists the id, or an update under way will bring it there. -/
def Awaited (manager : BucketManager.State) (streamPart : StreamPart) (id : BucketId) : Prop :=
  Listed manager streamPart id ∨ ∃ items item, manager.store = some items ∧ item ∈ items ∧
    item.columns.id = id ∧ item.key.streamPart = streamPart ∧ item.applied = false

/-- The store under way ends. -/
def endsStore : BucketManager.Event → Bool
  | .endStore _ => true
  | _ => false

/-- A store begins with an update for every bucket that was held and is not listed. -/
theorem awaited_beginStore (hheld : Held manager streamPart id)
    (hstep : BucketManager.step package options manager .beginStore = some after)
    (htidy : Tidy package manager) : Awaited after streamPart id := by
  simp only [BucketManager.step] at hstep
  split at hstep <;> cases hstep
  rcases hheld with hlisted | ⟨bucket, hbucket, hpart, hstored, -⟩
  · exact Or.inl hlisted
  · refine Or.inr ⟨_, updateOf bucket, rfl, List.mem_map.mpr ⟨bucket, ?_, rfl⟩, ?_, hpart, rfl⟩
    · have hvalue : bucket ∈ manager.buckets.values :=
        List.mem_map.mpr ⟨_, OrderedMap.get?_eq_some_iff.mp hbucket, rfl⟩
      exact List.mem_filter.mpr ⟨hvalue, decide_eq_true hstored⟩
    · exact htidy.heaps.id_eq hbucket

theorem awaited_step (hnone : ReplacesNone manager event) (hends : endsStore event = false)
    (hawaited : Awaited manager streamPart id)
    (hstep : BucketManager.step package options manager event = some after) :
    Awaited after streamPart id := by
  rcases hawaited with hlisted | ⟨items, item, hstore, hitem, hid, hpart, hpending⟩
  · exact Or.inl (listed_step hnone hlisted hstep)
  · cases hother : isStoreEvent event with
    | false =>
      refine Or.inr ⟨items, item, ?_, hitem, hid, hpart, hpending⟩
      rw [store_step hother hstep, hstore]
    | true =>
      cases event with
      | beginStore =>
        simp only [BucketManager.step, hstore] at hstep
        cases hstep
      | applyUpdate index =>
        simp only [BucketManager.step, hstore, Option.bind_some] at hstep
        obtain ⟨applied, happlied, rfl⟩ := Option.map_eq_some_iff.mp hstep
        by_cases heq : applied = item
        · -- the update itself reaches the table
          subst heq
          refine Or.inl ⟨applied.key.dateCreate, applied.columns, ?_, hid⟩
          rw [← hpart]
          exact OrderedMap.get?_set_self _ _ _
        · refine Or.inr ⟨_, item, rfl, ?_, hid, hpart, hpending⟩
          obtain ⟨position, hposition⟩ := List.mem_iff_getElem?.mp hitem
          have hne : index ≠ position := fun hsame ↦
            heq (Option.some.inj (happlied.symm.trans (hsame ▸ hposition)))
          refine List.mem_iff_getElem?.mpr ⟨position, ?_⟩
          rw [List.getElem?_set_ne hne]
          exact hposition
      | settleUpdate index fulfilled =>
        simp only [BucketManager.step, hstore, Option.bind_some] at hstep
        obtain ⟨settled, hsettled, hsettle⟩ := Option.bind_eq_some_iff.mp hstep
        split_ifs at hsettle
        cases hsettle
        obtain ⟨position, hposition⟩ := List.mem_iff_getElem?.mp hitem
        by_cases hsame : index = position
        · subst hsame
          obtain rfl := Option.some.inj (hsettled.symm.trans hposition)
          have hlength : index < items.length := (List.getElem?_eq_some_iff.mp hposition).1
          exact Or.inr ⟨_, _, rfl, List.mem_iff_getElem?.mpr
            ⟨index, List.getElem?_set_self hlength⟩, hid, hpart, hpending⟩
        · refine Or.inr ⟨_, item, rfl, List.mem_iff_getElem?.mpr ⟨position, ?_⟩, hid, hpart,
            hpending⟩
          rw [List.getElem?_set_ne hsame]
          exact hposition
      | endStore now => cases hends
      | _ => cases hother

end Manager

/-! ### Runs of the node -/

section Node

variable {state after : StoragePlugin.State} {event : StoragePlugin.Event}

/-- Every placed message is held. -/
structure Accounted (package : HeapPackage) (state : StoragePlugin.State) : Prop where
  tidy : Tidy package state.manager
  held : ∀ entry ∈ state.placed, Held state.manager entry.1.message.streamPart entry.2

theorem accounted_store (haccounted : Accounted package state) (arrival : Arrival) (now : ℤ) :
    Accounted package (store state arrival now) := by
  obtain ⟨htidy, hheld⟩ := haccounted
  have hasked : Tidy package
      (getBucketId state.manager arrival.message.streamPart arrival.message.timestamp).2 :=
    tidy_getBucketId htidy _ _
  obtain ⟨hbuckets, htable, -, -, hstore, -⟩ :=
    getBucketId_frame state.manager arrival.message.streamPart arrival.message.timestamp
  have hheldAsked : ∀ entry ∈ state.placed, Held
      (getBucketId state.manager arrival.message.streamPart arrival.message.timestamp).2
      entry.1.message.streamPart entry.2 := fun entry hentry ↦
    (hheld entry hentry).of_same htable hstore fun hbucket ↦ hbuckets ▸ hbucket
  have hfind := getBucketId_fst state.manager arrival.message.streamPart arrival.message.timestamp
  unfold StoragePlugin.store
  split
  · rename_i bucketId manager hget
    rw [hget] at hasked hheldAsked hfind hbuckets
    refine ⟨tidy_incrementBucket hasked _ _ _, fun entry hentry ↦ ?_⟩
    rcases List.mem_cons.mp hentry with rfl | hold
    · obtain ⟨-, bucket, -, hbucket, hpart, -⟩ := htidy.heaps.findBucketId_eq_some hfind.symm
      exact Or.inr (unwritten_incrementBucket hasked (hbuckets ▸ hbucket) hpart _ _)
    · exact held_incrementBucket hasked (hheldAsked entry hold) _ _ _
  · rename_i manager hget
    rw [hget] at hasked hheldAsked
    exact ⟨hasked, hheldAsked⟩

theorem accounted_step (hnamed : BucketDates.Named state.manager)
    (haccounted : Accounted package state)
    (hstep : StoragePlugin.step package options sdk config state event = some after) :
    Accounted package after := by
  cases event with
  | receive payload hasStreamPart chain receivedAt now =>
    obtain ⟨message, -, rfl⟩ := Option.map_eq_some_iff.mp hstep
    split_ifs
    · refine accounted_store ?_ _ now
      exact ⟨haccounted.tidy, haccounted.held⟩
    · exact haccounted
  | retry index now =>
    obtain ⟨arrival, -, rfl⟩ := Option.map_eq_some_iff.mp hstep
    refine accounted_store ?_ arrival now
    exact ⟨haccounted.tidy, haccounted.held⟩
  | write index =>
    obtain ⟨entry, -, rfl⟩ := Option.map_eq_some_iff.mp hstep
    exact ⟨haccounted.tidy, haccounted.held⟩
  | timer timer =>
    simp only [StoragePlugin.step] at hstep
    split_ifs at hstep
    obtain ⟨manager, hmanager, rfl⟩ := Option.map_eq_some_iff.mp hstep
    exact ⟨haccounted.tidy.step hmanager, fun entry hentry ↦ held_step haccounted.tidy
      (replacesNone_of_named hnamed haccounted.tidy) (haccounted.held entry hentry) hmanager⟩

/-- The states of the runs in which the placement is in order. -/
abbrev ReachableInOrder (package : HeapPackage) (options : BucketManagerOptions) (sdk : Sdk)
    (config : ValidationConfig) : StoragePlugin.State → Prop :=
  Transition.Reachable (StoragePlugin.step package options sdk config) (InOrder sdk config) Start

theorem placement_invariant (hreachable : ReachableInOrder package options sdk config state) :
    BucketPlacement.Invariant package (placementOf state) :=
  BucketPlacement.invariant_of_reachable
    (placement_reachable (fun _ _ hinOrder ↦ hinOrder) hreachable)

theorem accounted_of_reachable (hreachable : ReachableInOrder package options sdk config state) :
    Accounted package state := by
  refine hreachable.invariant (fun start hstart ↦ ?_)
    fun before event next hbefore haccounted _ hstep ↦
      accounted_step (placement_invariant hbefore).manager.named haccounted hstep
  have hmanager := hstart.placement.manager
  have hplaced : start.placed = [] := List.map_eq_nil_iff.mp hstart.placement.placed
  refine ⟨⟨HeapCoherent.of_empty hmanager.buckets hmanager.streamParts, fun {id bucket} hget ↦ ?_,
    hmanager.used, fun {run streamPart bucket} hrun ↦ ?_, fun {items} hitems ↦ ?_⟩,
    fun entry hentry ↦ ?_⟩
  · have hempty : start.manager.buckets = OrderedMap.empty := hmanager.buckets
    rw [hempty, OrderedMap.get?_empty] at hget
    cases hget
  · have hnone : start.manager.check = none := hmanager.check
    rw [hnone] at hrun
    cases hrun
  · have hnone : start.manager.store = none := hmanager.store
    rw [hnone] at hitems
    cases hitems
  · rw [hplaced] at hentry
    cases hentry

/-- The rows of listed buckets are where the reads look for them. -/
theorem wellPlaced_listedRows (hreachable : ReachableInOrder package options sdk config state) :
    WellPlaced state.manager.table (listedRows state.manager.table state.data) := by
  have hinvariant := placement_invariant hreachable
  intro row hrow
  obtain ⟨hentry, hlisted⟩ := List.mem_filter.mp hrow
  obtain ⟨⟨arrival, bucketId⟩, hplaced, rfl⟩ := (recorded_of_reachable hreachable).rows row hentry
  obtain ⟨date, columns, hcolumns, hid⟩ := isListed_iff.mp hlisted
  have hmessage : (placementMessage arrival, bucketId) ∈ (placementOf state).placed :=
    List.mem_map.mpr ⟨_, hplaced, rfl⟩
  obtain ⟨placedDate, hknown, hdate, hnewest⟩ := hinvariant.placed _ hmessage
  have htable : BucketDates.Known state.manager bucketId ⟨arrival.message.streamPart, date⟩ :=
    Or.inr ⟨columns, hcolumns, hid⟩
  obtain rfl : date = placedDate :=
    (BucketKey.mk.inj (hinvariant.manager.named.key_unique htable hknown)).2
  refine ⟨date, columns, hcolumns, hid, hdate, fun other others hother hbetween ↦ ?_⟩
  have hle := hnewest others.id other (Or.inr ⟨others, hother, rfl⟩) hbetween.2
  exact absurd hle (not_le.mpr hbetween.1)

/-- The message was read from its payload, and the validation let it through. -/
def LetThrough (sdk : Sdk) (config : ValidationConfig) (arrival : Arrival) : Prop :=
  sdk.convertBytesToStreamMessage arrival.payload = some arrival.message ∧
    ∃ chain hasStreamPart, IsStored sdk config chain hasStreamPart arrival.message

theorem letThrough_of_reachable (hreachable : ReachableInOrder package options sdk config state) :
    ∀ arrival ∈ state.arrived, LetThrough sdk config arrival := by
  refine arrived_of_reachable (LetThrough sdk config) ?_ hreachable
  intro _ payload hasStreamPart chain receivedAt now message _ hmessage hstored
  exact ⟨hmessage, chain, hasStreamPart, hstored⟩

/-- A row is that of a placed message that was let through. -/
theorem exists_placed_of_row (hreachable : ReachableInOrder package options sdk config state)
    {row : DataRow} (hrow : row ∈ state.data.entries) :
    ∃ entry ∈ state.placed, LetThrough sdk config entry.1 ∧ row = rowOf entry.1 entry.2 := by
  have hrecorded := recorded_of_reachable hreachable
  obtain ⟨entry, hentry, heq⟩ := hrecorded.rows row hrow
  exact ⟨entry, hentry,
    letThrough_of_reachable hreachable _ (hrecorded.placed entry hentry), heq⟩

/-- The store that is under way ends. -/
def endsRun : StoragePlugin.Event → Bool
  | .timer event => endsStore event
  | _ => false

/-- What is awaited or listed is a matter of the rows and the updates of the manager. -/
theorem awaited_congr {manager next : BucketManager.State} {streamPart : StreamPart}
    {id : BucketId} (htable : next.table = manager.table) (hstore : next.store = manager.store)
    (hawaited : Awaited manager streamPart id) : Awaited next streamPart id := by
  unfold Awaited Listed at *
  rw [htable, hstore]
  exact hawaited

/-- `store` leaves the rows and the updates of the manager alone. -/
theorem manager_store (arrival : Arrival) (now : ℤ) :
    (store state arrival now).manager.table = state.manager.table ∧
      (store state arrival now).manager.store = state.manager.store := by
  obtain ⟨-, htable, -, -, hstore, -⟩ :=
    getBucketId_frame state.manager arrival.message.streamPart arrival.message.timestamp
  unfold StoragePlugin.store
  split
  · rename_i bucketId manager hget
    rw [hget] at htable hstore
    constructor
    · refine Eq.trans ?_ htable
      unfold incrementBucket
      split <;> rfl
    · refine Eq.trans ?_ hstore
      unfold incrementBucket
      split <;> rfl
  · rename_i manager hget
    rw [hget] at htable hstore
    exact ⟨htable, hstore⟩

/-- A step of the node that is no step of the timers leaves the rows and the updates of the manager
alone. -/
theorem manager_step
    (hstep : StoragePlugin.step package options sdk config state event = some after) :
    (∃ timer, event = .timer timer ∧
      BucketManager.step package options state.manager timer = some after.manager) ∨
    (after.manager.table = state.manager.table ∧ after.manager.store = state.manager.store) := by
  cases event with
  | receive payload hasStreamPart chain receivedAt now =>
    obtain ⟨message, -, rfl⟩ := Option.map_eq_some_iff.mp hstep
    split_ifs
    · exact Or.inr (manager_store _ now)
    · exact Or.inr ⟨rfl, rfl⟩
  | retry index now =>
    obtain ⟨arrival, -, rfl⟩ := Option.map_eq_some_iff.mp hstep
    exact Or.inr (manager_store arrival now)
  | write index =>
    obtain ⟨entry, -, rfl⟩ := Option.map_eq_some_iff.mp hstep
    exact Or.inr ⟨rfl, rfl⟩
  | timer timer =>
    simp only [StoragePlugin.step] at hstep
    split_ifs at hstep
    obtain ⟨manager, hmanager, rfl⟩ := Option.map_eq_some_iff.mp hstep
    exact Or.inl ⟨timer, rfl, hmanager⟩

theorem replacesNone_of_reachable (hreachable : ReachableInOrder package options sdk config state)
    {timer : BucketManager.Event} : ReplacesNone state.manager timer :=
  replacesNone_of_named (placement_invariant hreachable).manager.named
    (accounted_of_reachable hreachable).tidy

theorem listed_node_step (hreachable : ReachableInOrder package options sdk config state)
    {streamPart : StreamPart} {id : BucketId} (hlisted : Listed state.manager streamPart id)
    (hstep : StoragePlugin.step package options sdk config state event = some after) :
    Listed after.manager streamPart id := by
  rcases manager_step hstep with ⟨timer, rfl, htimer⟩ | ⟨htable, -⟩
  · exact listed_step (replacesNone_of_reachable hreachable) hlisted htimer
  · obtain ⟨date, columns, hrow, hid⟩ := hlisted
    exact ⟨date, columns, htable ▸ hrow, hid⟩

theorem awaited_node_step (hreachable : ReachableInOrder package options sdk config state)
    {streamPart : StreamPart} {id : BucketId} (hends : endsRun event = false)
    (hawaited : Awaited state.manager streamPart id)
    (hstep : StoragePlugin.step package options sdk config state event = some after) :
    Awaited after.manager streamPart id := by
  rcases manager_step hstep with ⟨timer, rfl, htimer⟩ | ⟨htable, hstore⟩
  · exact awaited_step (replacesNone_of_reachable hreachable) hends hawaited htimer
  · exact awaited_congr htable hstore hawaited

/-- A step that may happen in the course of a store. -/
def DuringStore (sdk : Sdk) (config : ValidationConfig) (state : StoragePlugin.State)
    (event : StoragePlugin.Event) : Prop :=
  InOrder sdk config state event ∧ endsRun event = false

/-- A row that was written is there for ever, perhaps with the columns of a later write. -/
theorem has_data_step {key : DataKey} (hhas : state.data.has key = true)
    (hstep : StoragePlugin.step package options sdk config state event = some after) :
    after.data.has key = true := by
  cases event with
  | receive payload hasStreamPart chain receivedAt now =>
    obtain ⟨message, -, rfl⟩ := Option.map_eq_some_iff.mp hstep
    split_ifs
    · rw [(store_spec _ _ now).2.1]
      exact hhas
    · exact hhas
  | retry index now =>
    obtain ⟨arrival, -, rfl⟩ := Option.map_eq_some_iff.mp hstep
    rw [(store_spec _ arrival now).2.1]
    exact hhas
  | write index =>
    obtain ⟨entry, -, rfl⟩ := Option.map_eq_some_iff.mp hstep
    exact OrderedMap.has_set.mpr (Or.inr hhas)
  | timer timer =>
    simp only [StoragePlugin.step] at hstep
    split_ifs at hstep
    obtain ⟨manager, -, rfl⟩ := Option.map_eq_some_iff.mp hstep
    exact hhas

/-- Once the updates of a store have all reached the table, the buckets of all messages that were
placed when it began are listed. -/
theorem listed_of_applied {before begun during : StoragePlugin.State}
    (hbefore : ReachableInOrder package options sdk config before)
    (hinOrder : InOrder sdk config before (.timer .beginStore))
    (hbegin : StoragePlugin.step package options sdk config before (.timer .beginStore) =
      some begun)
    (hduring : Transition.Reachable (StoragePlugin.step package options sdk config)
      (DuringStore sdk config) (fun state ↦ state = begun) during)
    (happlied : ∀ items item, during.manager.store = some items → item ∈ items →
      item.applied = true) :
    ∀ entry ∈ before.placed, Listed during.manager entry.1.message.streamPart entry.2 := by
  intro entry hentry
  have hbegun : ReachableInOrder package options sdk config begun := hbefore.next hinOrder hbegin
  have hawaited : Awaited during.manager entry.1.message.streamPart entry.2 := by
    refine Transition.Reachable.invariant (?_ : ∀ start, start = begun →
      Awaited start.manager entry.1.message.streamPart entry.2) ?_ hduring
    · rintro _ rfl
      have haccounted := accounted_of_reachable hbefore
      simp only [StoragePlugin.step, isCall] at hbegin
      obtain ⟨manager, hmanager, rfl⟩ := Option.map_eq_some_iff.mp hbegin
      exact awaited_beginStore (haccounted.held entry hentry) hmanager haccounted.tidy
    · intro middle event next hmiddle hawaits hguard hstep
      exact awaited_node_step (hbegun.trans (hmiddle.mono fun _ _ hduring ↦ hduring.1)) hguard.2
        hawaits hstep
  rcases hawaited with hlisted | ⟨items, item, hstore, hitem, -, -, hpending⟩
  · exact hlisted
  · rw [happlied items item hstore hitem] at hpending
    cases hpending

end Node

/-! ### A bucket before and after a store -/

/-- The message at time 700000 has a bucket created, and its row is written. -/
def storeNewest : List StoragePlugin.Event :=
  [.receive [1] true StoredEndpoint.sampleChain 0 0, .timer .beginCheck, .timer .takeUp,
    .timer (.evaluate 0), .timer (.resume "newest" 0), .timer (.evaluate 0),
    .timer (.resume "newest" 0), .timer .takeUp, .retry 0 0,
    .receive [3] true StoredEndpoint.sampleChain 0 0,
    .receive [4] true StoredEndpoint.sampleChain 0 0, .timer .beginCheck, .timer .takeUp,
    .timer (.evaluate 0), .timer (.resume "newest" 0), .timer .takeUp, .retry 0 0, .write 0]

/-- The three updates of the next store reach the table. -/
def applyThree : List StoragePlugin.Event :=
  [.timer (.applyUpdate 0), .timer (.applyUpdate 1), .timer (.applyUpdate 2)]

/-- The request for everything from time 700000 to time 700001. -/
def newestRequest : RangeRequest where
  streamPart := BucketDates.stream
  fromTimestamp := 700000
  fromSequenceNo := 0
  toTimestamp := 700001
  toSequenceNo := 0
  publisherId := none
  msgChainId := none

/-- The row of the message at time 700000. -/
def newestRow : DataRow :=
  (⟨BucketDates.stream, "newest", 700000, ⟨0, zero_sequenceNumber⟩, SignedRequest.sampleUser, "chain"⟩,
    ⟨some [4], some 0⟩)

/-- A step of the node with the sample client. -/
abbrev sampleStep : StoragePlugin.State → StoragePlugin.Event → Option StoragePlugin.State :=
  StoragePlugin.step BucketDates.rootedHeap defaultBucketManagerOptions StoredEndpoint.sampleSdk
    StoredEndpoint.sampleConfig

/-- A check that the placement is in order and no store ends. -/
def checkDuring (state : StoragePlugin.State) (event : StoragePlugin.Event) : Bool :=
  StoredEndpoint.checkPlacement StoredEndpoint.sampleSdk StoredEndpoint.sampleConfig state event &&
    !endsRun event

theorem duringStore_of_checkDuring (state : StoragePlugin.State) (event : StoragePlugin.Event)
    (hcheck : checkDuring state event = true) :
    DuringStore StoredEndpoint.sampleSdk StoredEndpoint.sampleConfig state event := by
  obtain ⟨hplacement, hends⟩ := (Bool.and_eq_true _ _).mp hcheck
  exact ⟨StoredEndpoint.inOrder_of_checkPlacement state event hplacement,
    (Bool.not_eq_true' _).mp hends⟩

theorem start_olderNode : Start StoredEndpoint.olderNode :=
  ⟨⟨BucketPlacement.start_newNode.manager, rfl, rfl, rfl⟩, rfl⟩

end PomboStorageNode.Storage.ReadableMessages
