import PomboStorageNode.Library.Transition
import PomboStorageNode.Storage.Bucket

/-!
# The bucket manager

`BucketManager.ts` decides which bucket a message goes to. It keeps the buckets in use in memory,
per stream part in a heap whose first element is the newest one, and the timestamp of the oldest
message for which it found none. Two timers work on that. `checkFullBucketsOnce` goes through the
stream parts, loads buckets from the table and creates new ones; it awaits up to two lookups for a
part. `storeBucketsOnce` writes the counters of the buckets to the table and forgets those that are
written and idle. Both run interleaved with each other and with the calls of `getBucketId` and
`incrementBucket`, so the manager is a partial transition system (`step`): every stretch of code
between two awaits is one event, and so are the moment at which a lookup reads the table and the
moment at which an update reaches it.

The heap comes from a package; `HeapPackage` is what is known of it. A bucket is identified with
its id, under which the map `buckets` holds its counters.
-/

set_option autoImplicit false

namespace PomboStorageNode.Storage.BucketManager

open Library Tables

/-! ### The heap of a stream part -/

/-- A bucket in a heap: its creation date, by which the heap compares, and its id. -/
structure HeapItem where
  dateCreate : ℤ
  id : BucketId
  deriving DecidableEq

/-- The heap package: the array of a heap after `push`, and what is known of it. The first element
is a newest one, and nothing is said about the order of the others. -/
structure HeapPackage where
  push : List HeapItem → HeapItem → List HeapItem
  Ordered : List HeapItem → Prop
  ordered_nil : Ordered []
  ordered_push : ∀ {heap item}, Ordered heap → Ordered (push heap item)
  perm_push : ∀ heap item, (push heap item).Perm (item :: heap)
  head_newest : ∀ {first rest}, Ordered (first :: rest) →
    ∀ item ∈ rest, item.dateCreate ≤ first.dateCreate

/-- A heap rebuilt from an array, as `removeBucket` does it. -/
def HeapPackage.rebuild (package : HeapPackage) (items : List HeapItem) : List HeapItem :=
  items.foldl package.push []

/-! ### The state -/

/-- `StreamPartState`. -/
structure StreamPartState where
  buckets : List HeapItem
  minTimestamp : Option ℤ

/-- Where `checkFullBucketsOnce` stands: between two stream parts, or awaiting one of the two
lookups for a part, with the `minTimestamp` it read, the value of `insertNewBucket` and the answer
of the lookup once the table was read. -/
inductive CheckPhase
  | between
  | latest (streamPart : StreamPart) (minTimestamp : ℤ) (insertNewBucket : Bool)
      (answer : Option (Option Bucket))
  | atTimestamp (streamPart : StreamPart) (minTimestamp : ℤ) (answer : Option (Option Bucket))

/-- A run of `checkFullBucketsOnce`: the stream parts that are still to come, and the phase. -/
structure CheckRun where
  remaining : List StreamPart
  phase : CheckPhase

/-- One update of `storeBucketsOnce`: its parameters, whether it reached the table, and how its
promise settled. -/
structure StoreItem where
  key : BucketKey
  columns : BucketColumns
  applied : Bool
  fulfilled : Option Bool

/-- The manager and the table it works on. The list `usedIds` holds the ids made so far, and
`handedOut` the ids that `getBucketId` returned. -/
structure State where
  buckets : OrderedMap BucketId Bucket
  streamParts : OrderedMap StreamPart StreamPartState
  check : Option CheckRun
  store : Option (List StoreItem)
  table : BucketTable
  usedIds : List BucketId
  handedOut : List (StreamPart × BucketId)

/-! ### Finding a bucket -/

/-- The array of the heap of a stream part. -/
def State.heap (state : State) (streamPart : StreamPart) : List HeapItem :=
  match state.streamParts.get? streamPart with
  | some part => part.buckets
  | none => []

/-- `getLatestInMemoryBucket`. -/
def getLatestInMemoryBucket (state : State) (streamPart : StreamPart) : Option Bucket :=
  (state.heap streamPart).head?.bind fun item ↦ state.buckets.get? item.id

/-- The loop over the array of a heap without its first element. -/
def firstAtOrBefore (items : List HeapItem) (timestamp : ℤ) : Option BucketId :=
  (items.find? fun item ↦ item.dateCreate ≤ timestamp).map HeapItem.id

/-- `findBucketId`. -/
def findBucketId (state : State) (streamPart : StreamPart) (timestamp : ℤ) : Option BucketId :=
  match getLatestInMemoryBucket state streamPart with
  | some latestBucket =>
    if latestBucket.isAlmostFull = false ∧ latestBucket.dateCreate ≤ timestamp then
      some latestBucket.id
    else if timestamp < latestBucket.dateCreate then
      firstAtOrBefore ((state.heap streamPart).drop 1) timestamp
    else none
  | none => none

/-- The stream part after a message for which no bucket was found. -/
def StreamPartState.await (part : StreamPartState) (timestamp : ℤ) : StreamPartState :=
  { part with
    minTimestamp := some (match part.minTimestamp with
      | some minTimestamp => min minTimestamp timestamp
      | none => timestamp) }

/-- `getBucketId`: the id, if one is found, and the state after the call. -/
def getBucketId (state : State) (streamPart : StreamPart) (timestamp : ℤ) :
    Option BucketId × State :=
  match state.streamParts.get? streamPart with
  | some part =>
    match findBucketId state streamPart timestamp with
    | some bucketId =>
      (some bucketId, { state with handedOut := (streamPart, bucketId) :: state.handedOut })
    | none =>
      (none, { state with
        streamParts := state.streamParts.set streamPart (part.await timestamp) })
  | none =>
    (none, { state with streamParts := state.streamParts.set streamPart ⟨[], some timestamp⟩ })

/-- `incrementBucket`. A bucket that is not in memory is only warned about. -/
def incrementBucket (state : State) (bucketId : BucketId) (size : ℕ) (now : ℤ) : State :=
  match state.buckets.get? bucketId with
  | some bucket =>
    { state with buckets := state.buckets.set bucketId (bucket.incrementBucket size now) }
  | none => state

/-! ### Creating buckets -/

variable (package : HeapPackage) (options : BucketManagerOptions)

/-- A bucket is taken into memory, and the stream part no longer waits. -/
def pushBucket (state : State) (bucket : Bucket) : State :=
  { state with
    buckets := state.buckets.set bucket.id bucket
    streamParts := state.streamParts.set bucket.streamPart
      ⟨package.push (state.heap bucket.streamPart) ⟨bucket.dateCreate, bucket.id⟩, none⟩ }

/-- `checkFoundBuckets`: the state and `insertNewBucket` after it. -/
def checkFoundBuckets (state : State) (insertNewBucket : Bool) (foundBucket : Option Bucket) :
    State × Bool :=
  match foundBucket with
  | some bucket =>
    if state.buckets.has bucket.id then (state, true)
    else (pushBucket package state bucket, insertNewBucket)
  | none => (state, true)

/-- The new bucket, dated by the oldest waiting message. -/
def insertBucket (state : State) (streamPart : StreamPart) (minTimestamp : ℤ) (id : BucketId)
    (now : ℤ) : State :=
  pushBucket package { state with usedIds := id :: state.usedIds }
    (Bucket.create options now id streamPart 0 0 minTimestamp)

/-- The check goes on to the next stream part. -/
def State.setPhase (state : State) (remaining : List StreamPart) (phase : CheckPhase) : State :=
  { state with check := some ⟨remaining, phase⟩ }

/-- The check takes up a stream part: up to the first lookup it awaits. -/
def takeUp (state : State) (streamPart : StreamPart) (remaining : List StreamPart) : State :=
  match (state.streamParts.get? streamPart).bind StreamPartState.minTimestamp with
  | none => state.setPhase remaining .between
  | some minTimestamp =>
    match getLatestInMemoryBucket state streamPart with
    | none => state.setPhase remaining (.latest streamPart minTimestamp false none)
    | some latestBucket =>
      if latestBucket.isAlmostFull then
        state.setPhase remaining (.latest streamPart minTimestamp true none)
      else if findBucketId state streamPart minTimestamp = none then
        state.setPhase remaining (.atTimestamp streamPart minTimestamp none)
      else state.setPhase remaining .between

/-- The check goes on after the lookup of the latest bucket. -/
def resumeLatest (state : State) (remaining : List StreamPart) (streamPart : StreamPart)
    (minTimestamp : ℤ) (insertNewBucket : Bool) (foundBucket : Option Bucket) (id : BucketId)
    (now : ℤ) : State :=
  let (after, insert) := checkFoundBuckets package state insertNewBucket foundBucket
  if insert then
    (insertBucket package options after streamPart minTimestamp id now).setPhase remaining .between
  else if findBucketId after streamPart minTimestamp = none then
    after.setPhase remaining (.atTimestamp streamPart minTimestamp none)
  else after.setPhase remaining .between

/-- The check goes on after the lookup for the timestamp. -/
def resumeAtTimestamp (state : State) (remaining : List StreamPart) (streamPart : StreamPart)
    (minTimestamp : ℤ) (foundBucket : Option Bucket) (id : BucketId) (now : ℤ) : State :=
  let (after, insert) := checkFoundBuckets package state false foundBucket
  if insert then
    (insertBucket package options after streamPart minTimestamp id now).setPhase remaining .between
  else after.setPhase remaining .between

/-! ### Storing and forgetting buckets -/

/-- The update of a bucket. -/
def updateOf (bucket : Bucket) : StoreItem where
  key := ⟨bucket.streamPart, bucket.dateCreate⟩
  columns := ⟨bucket.id, bucket.records, bucket.size⟩
  applied := false
  fulfilled := none

/-- `removeBucket`. -/
def removeBucket (state : State) (bucketId : BucketId) (streamPart : StreamPart) : State :=
  { state with
    buckets := state.buckets.delete bucketId
    streamParts := match state.streamParts.get? streamPart with
      | some part => state.streamParts.set streamPart { part with
          buckets := package.rebuild (part.buckets.eraseP fun item ↦ item.id = bucketId) }
      | none => state.streamParts }

/-- What `storeBucketsOnce` does with a fulfilled update. -/
def settleStored (now : ℤ) (state : State) (item : StoreItem) : State :=
  if item.fulfilled = some true then
    match state.buckets.get? item.columns.id with
    | some bucket =>
      let stored := if bucket.records = item.columns.records then bucket.setStored else bucket
      let after := { state with buckets := state.buckets.set bucket.id stored }
      if stored.isAlive now = false ∧ stored.stored = true then
        removeBucket package after bucket.id bucket.streamPart
      else after
    | none => state
  else state

/-- A bucket that is stored and idle is removed. -/
def removeIdle (now : ℤ) (state : State) (bucket : Bucket) : State :=
  if bucket.stored = true ∧ bucket.isAlive now = false then
    removeBucket package state bucket.id bucket.streamPart
  else state

/-- The end of `storeBucketsOnce`, when all updates have settled. -/
def endStore (state : State) (items : List StoreItem) (now : ℤ) : State :=
  let settled := items.foldl (settleStored package now) state
  { settled.buckets.values.foldl (removeIdle package now) settled with store := none }

/-! ### Steps -/

/-- What can happen. -/
inductive Event
  | getBucketId (streamPart : StreamPart) (timestamp : ℤ)
  | incrementBucket (bucketId : BucketId) (size : ℕ) (now : ℤ)
  | beginCheck
  | takeUp
  | evaluate (now : ℤ)
  | resume (id : BucketId) (now : ℤ)
  | failLookup
  | beginStore
  | applyUpdate (index : ℕ)
  | settleUpdate (index : ℕ) (fulfilled : Bool)
  | endStore (now : ℤ)

/-- The calls of the manager that only `store` makes. -/
def isCall : Event → Bool
  | .getBucketId _ _ => true
  | .incrementBucket _ _ _ => true
  | _ => false

/-- The lookup that the check awaits reads the table. -/
def evaluate (state : State) (run : CheckRun) (now : ℤ) : Option State :=
  match run.phase with
  | .latest streamPart minTimestamp insertNewBucket none =>
    some (state.setPhase run.remaining (.latest streamPart minTimestamp insertNewBucket
      (some (getLastBuckets options now state.table streamPart 1 none).head?)))
  | .atTimestamp streamPart minTimestamp none =>
    some (state.setPhase run.remaining (.atTimestamp streamPart minTimestamp
      (some (getLastBuckets options now state.table streamPart 1 (some minTimestamp)).head?)))
  | _ => none

/-- The check goes on with the answer of its lookup. -/
def resume (state : State) (run : CheckRun) (id : BucketId) (now : ℤ) : Option State :=
  match run.phase with
  | .latest streamPart minTimestamp insertNewBucket (some foundBucket) =>
    some (resumeLatest package options state run.remaining streamPart minTimestamp insertNewBucket
      foundBucket id now)
  | .atTimestamp streamPart minTimestamp (some foundBucket) =>
    some (resumeAtTimestamp package options state run.remaining streamPart minTimestamp
      foundBucket id now)
  | _ => none

/-- The step relation. A lookup can fail, which ends the check; an update reaches the table at some
moment before the store ends, and its promise is fulfilled only after that; an id for a new bucket
was never used before. -/
def step (state : State) : Event → Option State
  | .getBucketId streamPart timestamp => some (getBucketId state streamPart timestamp).2
  | .incrementBucket bucketId size now => some (incrementBucket state bucketId size now)
  | .beginCheck =>
    match state.check with
    | none => some (state.setPhase state.streamParts.keys .between)
    | some _ => none
  | .takeUp =>
    match state.check with
    | some ⟨streamPart :: remaining, .between⟩ => some (takeUp state streamPart remaining)
    | some ⟨[], .between⟩ => some { state with check := none }
    | _ => none
  | .evaluate now => state.check.bind fun run ↦ evaluate options state run now
  | .resume id now =>
    if id ∈ state.usedIds then none
    else state.check.bind fun run ↦ resume package options state run id now
  | .failLookup =>
    match state.check with
    | some ⟨_, .latest ..⟩ => some { state with check := none }
    | some ⟨_, .atTimestamp ..⟩ => some { state with check := none }
    | _ => none
  | .beginStore =>
    match state.store with
    | none => some { state with
        store := some ((state.buckets.values.filter fun bucket ↦ bucket.stored = false).map
          updateOf) }
    | some _ => none
  | .applyUpdate index =>
    state.store.bind fun items ↦ items[index]?.map fun item ↦
      { state with
        table := state.table.set item.key item.columns
        store := some (items.set index { item with applied := true }) }
  | .settleUpdate index fulfilled =>
    state.store.bind fun items ↦ items[index]?.bind fun item ↦
      if item.fulfilled = none ∧ (fulfilled = true → item.applied = true) then
        some { state with
          store := some (items.set index { item with fulfilled := some fulfilled }) }
      else none
  | .endStore now =>
    state.store.bind fun items ↦
      if items.all fun item ↦ item.fulfilled.isSome then
        some (endStore package state items now)
      else none

/-! ### Memory and heaps -/

variable {package options}

theorem HeapPackage.perm_rebuild (package : HeapPackage) (items : List HeapItem) :
    (package.rebuild items).Perm items := by
  have hfold : ∀ remaining heap : List HeapItem,
      (remaining.foldl package.push heap).Perm (remaining ++ heap) := by
    intro remaining
    induction remaining with
    | nil => exact fun heap ↦ List.Perm.refl heap
    | cons item remaining ih =>
      intro heap
      rw [List.foldl_cons]
      refine (ih (package.push heap item)).trans ?_
      refine ((package.perm_push heap item).append_left remaining).trans ?_
      exact List.perm_middle
  simpa [HeapPackage.rebuild] using hfold items []

theorem HeapPackage.ordered_rebuild (package : HeapPackage) (items : List HeapItem) :
    package.Ordered (package.rebuild items) := by
  have hfold : ∀ remaining heap : List HeapItem, package.Ordered heap →
      package.Ordered (remaining.foldl package.push heap) := by
    intro remaining
    induction remaining with
    | nil => exact fun heap hordered ↦ hordered
    | cons item remaining ih => exact fun heap hordered ↦ ih _ (package.ordered_push hordered)
  exact hfold items [] package.ordered_nil

/-- The heap of a stream part after it was set. -/
theorem heap_set (state : State) {after : State} {streamPart other : StreamPart}
    (part : StreamPartState)
    (hparts : after.streamParts = state.streamParts.set streamPart part) :
    after.heap other = if other = streamPart then part.buckets else state.heap other := by
  unfold State.heap
  rw [hparts]
  split_ifs with heq
  · rw [heq, OrderedMap.get?_set_self]
  · rw [OrderedMap.get?_set_of_ne _ _ heq]

theorem heap_pushBucket (state : State) (bucket : Bucket) (streamPart : StreamPart) :
    (pushBucket package state bucket).heap streamPart =
      if streamPart = bucket.streamPart then
        package.push (state.heap bucket.streamPart) ⟨bucket.dateCreate, bucket.id⟩
      else state.heap streamPart :=
  heap_set state
    ⟨package.push (state.heap bucket.streamPart) ⟨bucket.dateCreate, bucket.id⟩, none⟩ rfl

theorem heap_removeBucket (state : State) (bucketId : BucketId)
    (streamPart other : StreamPart) :
    (removeBucket package state bucketId streamPart).heap other =
      if other = streamPart then
        package.rebuild ((state.heap streamPart).eraseP fun item ↦ item.id = bucketId)
      else state.heap other := by
  cases hpart : state.streamParts.get? streamPart with
  | some part =>
    have hheap : state.heap streamPart = part.buckets := by rw [State.heap, hpart]
    rw [hheap]
    refine heap_set state { part with
      buckets := package.rebuild (part.buckets.eraseP fun item ↦ item.id = bucketId) } ?_
    simp only [removeBucket, hpart]
  | none =>
    have hheap : state.heap streamPart = [] := by rw [State.heap, hpart]
    have hsame : (removeBucket package state bucketId streamPart).heap other =
        state.heap other := by
      simp only [State.heap, removeBucket, hpart]
    rw [hsame, hheap]
    split_ifs with heq
    · rw [heq, hheap]
      rfl
    · rfl

/-- The buckets in memory and the heaps say the same. -/
structure HeapCoherent (package : HeapPackage) (state : State) : Prop where
  id_eq : ∀ {id bucket}, state.buckets.get? id = some bucket → bucket.id = id
  mem_heap : ∀ {streamPart item}, item ∈ state.heap streamPart ↔ ∃ bucket,
    state.buckets.get? item.id = some bucket ∧ bucket.streamPart = streamPart ∧
      bucket.dateCreate = item.dateCreate
  nodup_heap : ∀ streamPart, (state.heap streamPart).Nodup
  ordered_heap : ∀ streamPart, package.Ordered (state.heap streamPart)

/-- The buckets in memory and the heaps say the same, and a bucket that counts as stored has its
row. -/
structure Coherent (package : HeapPackage) (state : State) : Prop
    extends HeapCoherent package state where
  stored_row : ∀ {id bucket}, state.buckets.get? id = some bucket → bucket.stored = true →
    ∃ columns, state.table.get? ⟨bucket.streamPart, bucket.dateCreate⟩ = some columns

/-- Two elements of a heap with one id are the same. -/
theorem HeapCoherent.item_eq {state : State} (hcoherent : HeapCoherent package state)
    {streamPart : StreamPart} {first second : HeapItem} (hfirst : first ∈ state.heap streamPart)
    (hsecond : second ∈ state.heap streamPart) (hid : first.id = second.id) : first = second := by
  obtain ⟨bucket, hbucket, -, hdate⟩ := hcoherent.mem_heap.mp hfirst
  obtain ⟨other, hother, -, hotherDate⟩ := hcoherent.mem_heap.mp hsecond
  rw [hid, hother, Option.some.injEq] at hbucket
  have hdates : first.dateCreate = second.dateCreate := by rw [← hdate, ← hotherDate, hbucket]
  cases first
  cases second
  rw [HeapItem.mk.injEq]
  exact ⟨hdates, hid⟩

/-- What is left in an array after its only element with a property was erased.
Assumes: the array has no repetitions and at most one element with the property. -/
theorem mem_eraseP {items : List HeapItem} {erased : HeapItem → Bool} (hnodup : items.Nodup)
    (hunique : ∀ first ∈ items, ∀ second ∈ items, erased first = true → erased second = true →
      first = second) {item : HeapItem} :
    item ∈ items.eraseP erased ↔ item ∈ items ∧ erased item = false := by
  induction items with
  | nil => simp
  | cons first items ih =>
    obtain ⟨hfirst, hnodup⟩ := List.nodup_cons.mp hnodup
    have hunique' := fun one hone two htwo ↦ hunique one (List.mem_cons_of_mem first hone) two
      (List.mem_cons_of_mem first htwo)
    cases herased : erased first with
    | true =>
      rw [List.eraseP_cons_of_pos herased, List.mem_cons]
      constructor
      · intro hmem
        refine ⟨Or.inr hmem, Bool.not_eq_true _ ▸ fun hitem ↦ hfirst ?_⟩
        rw [hunique first List.mem_cons_self item (List.mem_cons_of_mem _ hmem) herased hitem]
        exact hmem
      · rintro ⟨rfl | hmem, hkept⟩
        · rw [herased] at hkept
          cases hkept
        · exact hmem
    | false =>
      rw [List.eraseP_cons_of_neg (by simp [herased]), List.mem_cons, List.mem_cons,
        ih hnodup hunique']
      constructor
      · rintro (rfl | ⟨hmem, hkept⟩)
        · exact ⟨Or.inl rfl, herased⟩
        · exact ⟨Or.inr hmem, hkept⟩
      · rintro ⟨rfl | hmem, hkept⟩
        · exact Or.inl rfl
        · exact Or.inr ⟨hmem, hkept⟩

/-- A new manager is coherent. -/
theorem HeapCoherent.of_empty {state : State} (hbuckets : state.buckets = OrderedMap.empty)
    (hparts : state.streamParts = OrderedMap.empty) : HeapCoherent package state := by
  have hheap : ∀ part, state.heap part = [] := fun part ↦ by
    rw [State.heap, hparts, OrderedMap.get?_empty]
  have hempty : ∀ {id bucket}, state.buckets.get? id ≠ some bucket := by
    intro id bucket
    rw [hbuckets, OrderedMap.get?_empty]
    exact nofun
  refine ⟨fun hget ↦ absurd hget hempty, fun {part item} ↦ ?_, fun part ↦ ?_, fun part ↦ ?_⟩
  · rw [hheap]
    exact iff_of_false List.not_mem_nil fun ⟨_, hget, _⟩ ↦ hempty hget
  · rw [hheap]
    exact List.nodup_nil
  · rw [hheap]
    exact package.ordered_nil

/-- A state with the same buckets and heaps is coherent as well. -/
theorem HeapCoherent.congr {state after : State} (hcoherent : HeapCoherent package state)
    (hbuckets : after.buckets = state.buckets)
    (hheap : ∀ part, after.heap part = state.heap part) : HeapCoherent package after := by
  constructor
  · rw [hbuckets]
    exact hcoherent.id_eq
  · intro streamPart item
    rw [hbuckets, hheap]
    exact hcoherent.mem_heap
  · intro streamPart
    rw [hheap]
    exact hcoherent.nodup_heap streamPart
  · intro streamPart
    rw [hheap]
    exact hcoherent.ordered_heap streamPart

theorem Coherent.congr {state after : State} (hcoherent : Coherent package state)
    (hbuckets : after.buckets = state.buckets) (hheap : ∀ part, after.heap part = state.heap part)
    (htable : ∀ key columns, state.table.get? key = some columns →
      ∃ columns, after.table.get? key = some columns) : Coherent package after := by
  refine ⟨hcoherent.toHeapCoherent.congr hbuckets hheap, fun hbucket hstored ↦ ?_⟩
  rw [hbuckets] at hbucket
  obtain ⟨columns, hrow⟩ := hcoherent.stored_row hbucket hstored
  exact htable _ _ hrow

/-- Changing the counters of a bucket keeps coherence.
Assumes: the bucket keeps its id, stream part and date. -/
theorem HeapCoherent.set_bucket {state : State} (hcoherent : HeapCoherent package state)
    {id : BucketId} {bucket changed : Bucket} (hbucket : state.buckets.get? id = some bucket)
    (hid : changed.id = bucket.id) (hpart : changed.streamPart = bucket.streamPart)
    (hdate : changed.dateCreate = bucket.dateCreate) :
    HeapCoherent package { state with buckets := state.buckets.set id changed } := by
  constructor
  · intro other found hfound
    by_cases heq : other = id
    · subst heq
      simp only [OrderedMap.get?_set_self, Option.some.injEq] at hfound
      rw [← hfound, hid, hcoherent.id_eq hbucket]
    · rw [OrderedMap.get?_set_of_ne _ _ heq] at hfound
      exact hcoherent.id_eq hfound
  · intro streamPart item
    have hheap : State.heap { state with buckets := state.buckets.set id changed } streamPart =
      state.heap streamPart := rfl
    rw [hheap, hcoherent.mem_heap]
    by_cases heq : item.id = id
    · simp only [heq, OrderedMap.get?_set_self, hbucket, Option.some.injEq, exists_eq_left']
      rw [hpart, hdate]
    · simp only [OrderedMap.get?_set_of_ne _ _ heq]
  · exact hcoherent.nodup_heap
  · exact hcoherent.ordered_heap

/-- The same, when the bucket counts as stored only with a row. -/
theorem Coherent.set_bucket {state : State} (hcoherent : Coherent package state)
    {id : BucketId} {bucket changed : Bucket} (hbucket : state.buckets.get? id = some bucket)
    (hid : changed.id = bucket.id) (hpart : changed.streamPart = bucket.streamPart)
    (hdate : changed.dateCreate = bucket.dateCreate)
    (hstored : changed.stored = true → ∃ columns,
      state.table.get? ⟨bucket.streamPart, bucket.dateCreate⟩ = some columns) :
    Coherent package { state with buckets := state.buckets.set id changed } := by
  refine ⟨hcoherent.toHeapCoherent.set_bucket hbucket hid hpart hdate,
    fun {other found} hfound hmarked ↦ ?_⟩
  by_cases heq : other = id
  · subst heq
    simp only [OrderedMap.get?_set_self, Option.some.injEq] at hfound
    subst hfound
    rw [hpart, hdate]
    exact hstored hmarked
  · rw [OrderedMap.get?_set_of_ne _ _ heq] at hfound
    exact hcoherent.stored_row hfound hmarked

/-- Taking a bucket into memory keeps coherence.
Assumes: no bucket with its id is in memory. -/
theorem HeapCoherent.pushBucket {state : State} (hcoherent : HeapCoherent package state)
    {bucket : Bucket} (hnew : state.buckets.get? bucket.id = none) :
    HeapCoherent package (pushBucket package state bucket) := by
  have hbuckets : (BucketManager.pushBucket package state bucket).buckets =
      state.buckets.set bucket.id bucket := rfl
  have hnotMem : ∀ item ∈ state.heap bucket.streamPart, item.id ≠ bucket.id := by
    intro item hitem heq
    obtain ⟨found, hfound, -⟩ := hcoherent.mem_heap.mp hitem
    rw [heq, hnew] at hfound
    cases hfound
  constructor
  · intro id found hfound
    rw [hbuckets] at hfound
    by_cases heq : id = bucket.id
    · rw [heq, OrderedMap.get?_set_self, Option.some.injEq] at hfound
      rw [heq, ← hfound]
    · rw [OrderedMap.get?_set_of_ne _ _ heq] at hfound
      exact hcoherent.id_eq hfound
  · intro streamPart item
    have hitem : ∀ item, item ∈ (BucketManager.pushBucket package state bucket).heap streamPart ↔
        (streamPart = bucket.streamPart ∧ item = ⟨bucket.dateCreate, bucket.id⟩) ∨
          item ∈ state.heap streamPart := by
      intro item
      rw [heap_pushBucket]
      split_ifs with heq
      · rw [(package.perm_push _ _).mem_iff, List.mem_cons, heq]
        simp
      · simp [heq]
    rw [hitem, hbuckets, hcoherent.mem_heap]
    by_cases heq : item.id = bucket.id
    · simp only [heq, OrderedMap.get?_set_self, hnew, Option.some.injEq, exists_eq_left',
        reduceCtorEq, false_and, exists_false, or_false]
      obtain ⟨date, id⟩ := item
      obtain rfl : id = bucket.id := heq
      simp [eq_comm]
    · simp only [OrderedMap.get?_set_of_ne _ _ heq]
      refine or_iff_right fun hand ↦ heq ?_
      rw [hand.2]
  · intro streamPart
    rw [heap_pushBucket]
    split_ifs with heq
    · refine (package.perm_push _ _).nodup_iff.mpr (List.nodup_cons.mpr ⟨fun hmem ↦ ?_,
        hcoherent.nodup_heap _⟩)
      exact hnotMem _ hmem rfl
    · exact hcoherent.nodup_heap streamPart
  · intro streamPart
    rw [heap_pushBucket]
    split_ifs
    · exact package.ordered_push (hcoherent.ordered_heap _)
    · exact hcoherent.ordered_heap streamPart

theorem Coherent.pushBucket {state : State} (hcoherent : Coherent package state) {bucket : Bucket}
    (hnew : state.buckets.get? bucket.id = none) (hstored : bucket.stored = false) :
    Coherent package (pushBucket package state bucket) := by
  refine ⟨hcoherent.toHeapCoherent.pushBucket hnew, fun {id found} hfound hmarked ↦ ?_⟩
  change (state.buckets.set bucket.id bucket).get? id = some found at hfound
  by_cases heq : id = bucket.id
  · rw [heq, OrderedMap.get?_set_self, Option.some.injEq] at hfound
    rw [← hfound, hstored] at hmarked
    cases hmarked
  · rw [OrderedMap.get?_set_of_ne _ _ heq] at hfound
    exact hcoherent.stored_row hfound hmarked

/-- Forgetting a bucket keeps coherence. -/
theorem HeapCoherent.removeBucket {state : State} (hcoherent : HeapCoherent package state)
    {id : BucketId} {bucket : Bucket} (hbucket : state.buckets.get? id = some bucket) :
    HeapCoherent package (removeBucket package state id bucket.streamPart) := by
  have hbuckets : (BucketManager.removeBucket package state id bucket.streamPart).buckets =
      state.buckets.delete id := rfl
  have hitem : ∀ streamPart item,
      item ∈ (BucketManager.removeBucket package state id bucket.streamPart).heap streamPart ↔
        item ∈ state.heap streamPart ∧ item.id ≠ id := by
    intro streamPart item
    rw [heap_removeBucket]
    split_ifs with heq
    · rw [(package.perm_rebuild _).mem_iff, heq,
        mem_eraseP (hcoherent.nodup_heap _) (fun first hfirst second hsecond hone htwo ↦ ?_),
        decide_eq_false_iff_not]
      exact hcoherent.item_eq hfirst hsecond
        ((of_decide_eq_true hone).trans (of_decide_eq_true htwo).symm)
    · refine (and_iff_left_of_imp fun hmem hid ↦ heq ?_).symm
      obtain ⟨found, hfound, hpart, -⟩ := hcoherent.mem_heap.mp hmem
      rw [hid, hbucket, Option.some.injEq] at hfound
      rw [← hpart, hfound]
  constructor
  · intro other found hfound
    rw [hbuckets] at hfound
    by_cases heq : other = id
    · rw [heq, OrderedMap.get?_delete_self] at hfound
      cases hfound
    · rw [OrderedMap.get?_delete_of_ne _ heq] at hfound
      exact hcoherent.id_eq hfound
  · intro streamPart item
    rw [hitem, hbuckets, hcoherent.mem_heap]
    by_cases heq : item.id = id
    · simp [heq]
    · simp [heq]
  · intro streamPart
    rw [heap_removeBucket]
    split_ifs
    · exact (package.perm_rebuild _).nodup_iff.mpr
        ((hcoherent.nodup_heap _).sublist List.eraseP_sublist)
    · exact hcoherent.nodup_heap streamPart
  · intro streamPart
    rw [heap_removeBucket]
    split_ifs
    · exact package.ordered_rebuild _
    · exact hcoherent.ordered_heap streamPart

/-- The buckets in memory, listed, have distinct ids and are found under them. -/
theorem HeapCoherent.values_spec {state : State} (hcoherent : HeapCoherent package state) :
    (state.buckets.values.map Bucket.id).Nodup ∧
      ∀ bucket ∈ state.buckets.values, state.buckets.get? bucket.id = some bucket := by
  have hentry : ∀ entry ∈ state.buckets.entries, entry.2.id = entry.1 := fun entry hentry ↦
    hcoherent.id_eq (OrderedMap.get?_eq_some_iff.mpr hentry)
  constructor
  · have hkeys : state.buckets.values.map Bucket.id = state.buckets.entries.map Prod.fst := by
      rw [OrderedMap.values, List.map_map]
      exact List.map_congr_left hentry
    rw [hkeys]
    exact state.buckets.nodup_keys
  · intro bucket hbucket
    obtain ⟨entry, hmem, rfl⟩ := List.mem_map.mp hbucket
    rw [hentry entry hmem]
    exact OrderedMap.get?_eq_some_iff.mpr hmem

/-! ### What is found in memory -/

/-- The latest bucket is the first of its heap. -/
theorem HeapCoherent.latest_eq_some {state : State} (hcoherent : HeapCoherent package state)
    {streamPart : StreamPart} {latest : Bucket}
    (hlatest : getLatestInMemoryBucket state streamPart = some latest) :
    state.buckets.get? latest.id = some latest ∧ latest.streamPart = streamPart ∧
      ∃ rest, state.heap streamPart = ⟨latest.dateCreate, latest.id⟩ :: rest := by
  unfold getLatestInMemoryBucket at hlatest
  cases hheap : state.heap streamPart with
  | nil =>
    rw [hheap] at hlatest
    cases hlatest
  | cons first rest =>
    rw [hheap] at hlatest
    change state.buckets.get? first.id = some latest at hlatest
    have hfirst : first ∈ state.heap streamPart := hheap ▸ List.mem_cons_self
    obtain ⟨bucket, hbucket, hpart, hdate⟩ := hcoherent.mem_heap.mp hfirst
    obtain rfl : latest = bucket := Option.some.inj (hlatest.symm.trans hbucket)
    have hid := hcoherent.id_eq hlatest
    refine ⟨hid ▸ hlatest, hpart, rest, ?_⟩
    rw [hdate, hid]

/-- There is no latest bucket only when none is in memory. -/
theorem HeapCoherent.latest_eq_none {state : State} (hcoherent : HeapCoherent package state)
    {streamPart : StreamPart} (hlatest : getLatestInMemoryBucket state streamPart = none) :
    state.heap streamPart = [] := by
  unfold getLatestInMemoryBucket at hlatest
  cases hheap : state.heap streamPart with
  | nil => rfl
  | cons first rest =>
    have hfirst : first ∈ state.heap streamPart := hheap ▸ List.mem_cons_self
    obtain ⟨bucket, hbucket, -⟩ := hcoherent.mem_heap.mp hfirst
    rw [hheap] at hlatest
    change state.buckets.get? first.id = none at hlatest
    rw [hbucket] at hlatest
    cases hlatest

/-- No bucket in memory is newer than the latest one. -/
theorem HeapCoherent.le_latest {state : State} (hcoherent : HeapCoherent package state)
    {streamPart : StreamPart} {latest : Bucket}
    (hlatest : getLatestInMemoryBucket state streamPart = some latest) {item : HeapItem}
    (hitem : item ∈ state.heap streamPart) : item.dateCreate ≤ latest.dateCreate := by
  obtain ⟨-, -, rest, hheap⟩ := hcoherent.latest_eq_some hlatest
  have hordered := hcoherent.ordered_heap streamPart
  rw [hheap] at hitem hordered
  rcases List.mem_cons.mp hitem with rfl | hrest
  · exact le_rfl
  · exact package.head_newest hordered item hrest

/-- A bucket that is taken into memory when none of its stream part is there is the latest one. -/
theorem latest_pushBucket_of_nil {state : State} {bucket : Bucket}
    (hheap : state.heap bucket.streamPart = []) :
    getLatestInMemoryBucket (pushBucket package state bucket) bucket.streamPart = some bucket := by
  have hpushed : (pushBucket package state bucket).heap bucket.streamPart =
      [⟨bucket.dateCreate, bucket.id⟩] := by
    rw [heap_pushBucket, if_pos rfl, hheap]
    exact List.perm_singleton.mp (package.perm_push [] _)
  rw [getLatestInMemoryBucket, hpushed]
  exact OrderedMap.get?_set_self _ _ _

/-- What `findBucketId` finds: the latest bucket, when it starts by the timestamp and has room, or
the first of the others in the array that starts by the timestamp, when the latest does not. -/
theorem HeapCoherent.findBucketId_eq_some {state : State} (hcoherent : HeapCoherent package state)
    {streamPart : StreamPart} {timestamp : ℤ} {id : BucketId}
    (hfind : findBucketId state streamPart timestamp = some id) :
    ∃ latest bucket, getLatestInMemoryBucket state streamPart = some latest ∧
      state.buckets.get? id = some bucket ∧ bucket.streamPart = streamPart ∧
      bucket.dateCreate ≤ timestamp ∧
      (bucket = latest ∧ latest.isAlmostFull = false ∨
        timestamp < latest.dateCreate ∧
          firstAtOrBefore ((state.heap streamPart).drop 1) timestamp = some id) := by
  unfold findBucketId at hfind
  cases hlatest : getLatestInMemoryBucket state streamPart with
  | none =>
    rw [hlatest] at hfind
    cases hfind
  | some latest =>
    obtain ⟨hget, hpart, -⟩ := hcoherent.latest_eq_some hlatest
    simp only [hlatest] at hfind
    split_ifs at hfind with hroom hpast
    · obtain rfl := Option.some.inj hfind
      exact ⟨latest, latest, rfl, hget, hpart, hroom.2, Or.inl ⟨rfl, hroom.1⟩⟩
    · obtain ⟨item, hitem, rfl⟩ := Option.map_eq_some_iff.mp hfind
      have hmem : item ∈ state.heap streamPart :=
        List.mem_of_mem_drop (List.mem_of_find?_eq_some hitem)
      have hdate : item.dateCreate ≤ timestamp := by simpa using List.find?_some hitem
      obtain ⟨bucket, hbucket, hbucketPart, hbucketDate⟩ := hcoherent.mem_heap.mp hmem
      exact ⟨latest, bucket, rfl, hbucket, hbucketPart, hbucketDate.trans_le hdate,
        Or.inr ⟨hpast, hfind⟩⟩

/-- When `findBucketId` finds nothing: the latest bucket is almost full, or every bucket in memory
starts after the timestamp. -/
theorem HeapCoherent.findBucketId_eq_none {state : State} (hcoherent : HeapCoherent package state)
    {streamPart : StreamPart} {timestamp : ℤ} {latest : Bucket}
    (hlatest : getLatestInMemoryBucket state streamPart = some latest)
    (hfind : findBucketId state streamPart timestamp = none) :
    latest.isAlmostFull = true ∧ latest.dateCreate ≤ timestamp ∨
      ∀ item ∈ state.heap streamPart, timestamp < item.dateCreate := by
  obtain ⟨-, -, rest, hheap⟩ := hcoherent.latest_eq_some hlatest
  unfold findBucketId at hfind
  simp only [hlatest] at hfind
  split_ifs at hfind with hroom hpast
  · refine Or.inr fun item hitem ↦ ?_
    rw [firstAtOrBefore, Option.map_eq_none_iff, List.find?_eq_none] at hfind
    rw [hheap] at hitem hfind
    rcases List.mem_cons.mp hitem with rfl | hrest
    · exact hpast
    · simpa using hfind item hrest
  · refine Or.inl ⟨?_, not_lt.mp hpast⟩
    by_contra hfull
    exact hroom ⟨Bool.not_eq_true _ ▸ hfull, not_lt.mp hpast⟩

/-! ### What the end of a store does -/

/-- A fulfilled update wrote the counters that the bucket has. -/
def WrittenBy (items : List StoreItem) (bucket : Bucket) : Prop :=
  ∃ item ∈ items, item.columns.id = bucket.id ∧ item.fulfilled = some true ∧
    item.columns.records = bucket.records

/-- What the end of a store does: it marks buckets that were written as stored, and forgets buckets
that are. -/
structure Sheds (package : HeapPackage) (items : List StoreItem) (state after : State) :
    Prop where
  heaps : HeapCoherent package after
  memory : ∀ {id bucket}, after.buckets.get? id = some bucket → ∃ before,
    state.buckets.get? id = some before ∧
      (bucket = before ∨ bucket = before.setStored ∧ WrittenBy items before)
  left : ∀ {id before}, state.buckets.get? id = some before → after.buckets.get? id = none →
    before.stored = true ∨ WrittenBy items before
  table : after.table = state.table
  check : after.check = state.check
  usedIds : after.usedIds = state.usedIds
  handedOut : after.handedOut = state.handedOut
  minTimestamp : ∀ streamPart,
    (after.streamParts.get? streamPart).bind StreamPartState.minTimestamp =
      (state.streamParts.get? streamPart).bind StreamPartState.minTimestamp

variable {items : List StoreItem}

theorem Sheds.refl {state : State} (hheaps : HeapCoherent package state) :
    Sheds package items state state :=
  ⟨hheaps, fun hbucket ↦ ⟨_, hbucket, Or.inl rfl⟩,
    fun hbefore hafter ↦ absurd (hbefore.symm.trans hafter) nofun, rfl, rfl, rfl, rfl, fun _ ↦ rfl⟩

theorem Sheds.trans {state after final : State} (hfirst : Sheds package items state after)
    (hsecond : Sheds package items after final) : Sheds package items state final := by
  refine ⟨hsecond.heaps, fun hbucket ↦ ?_, fun {id before} hbefore hfinal ↦ ?_,
    hsecond.table.trans hfirst.table, hsecond.check.trans hfirst.check,
    hsecond.usedIds.trans hfirst.usedIds, hsecond.handedOut.trans hfirst.handedOut,
    fun part ↦ (hsecond.minTimestamp part).trans (hfirst.minTimestamp part)⟩
  · obtain ⟨middle, hmiddle, hchange⟩ := hsecond.memory hbucket
    obtain ⟨before, hbefore, hchange'⟩ := hfirst.memory hmiddle
    refine ⟨before, hbefore, ?_⟩
    rcases hchange' with rfl | ⟨rfl, hwritten⟩
    · exact hchange
    · rcases hchange with rfl | ⟨rfl, -⟩
      · exact Or.inr ⟨rfl, hwritten⟩
      · exact Or.inr ⟨rfl, hwritten⟩
  · cases hmiddle : after.buckets.get? id with
    | none => exact hfirst.left hbefore hmiddle
    | some middle =>
      obtain ⟨found, hfound, hchange⟩ := hfirst.memory hmiddle
      obtain rfl := Option.some.inj (hfound.symm.trans hbefore)
      rcases hchange with rfl | ⟨rfl, hwritten⟩
      · exact hsecond.left hmiddle hfinal
      · exact Or.inr hwritten

theorem minTimestamp_removeBucket (state : State) (id : BucketId)
    (streamPart other : StreamPart) :
    ((removeBucket package state id streamPart).streamParts.get? other).bind
        StreamPartState.minTimestamp =
      (state.streamParts.get? other).bind StreamPartState.minTimestamp := by
  cases hpart : state.streamParts.get? streamPart with
  | none => simp only [removeBucket, hpart]
  | some part =>
    simp only [removeBucket, hpart]
    by_cases heq : other = streamPart
    · rw [heq, OrderedMap.get?_set_self, hpart]
      rfl
    · rw [OrderedMap.get?_set_of_ne _ _ heq]

theorem sheds_removeBucket {state : State} (hheaps : HeapCoherent package state) {id : BucketId}
    {bucket : Bucket} (hbucket : state.buckets.get? id = some bucket)
    (hstored : bucket.stored = true) :
    Sheds package items state (removeBucket package state id bucket.streamPart) := by
  have hget : ∀ other, (removeBucket package state id bucket.streamPart).buckets.get? other =
      if other = id then none else state.buckets.get? other := by
    intro other
    change (state.buckets.delete id).get? other = _
    split_ifs with heq
    · rw [heq, OrderedMap.get?_delete_self]
    · rw [OrderedMap.get?_delete_of_ne _ heq]
  refine ⟨hheaps.removeBucket hbucket, fun {other found} hfound ↦ ?_,
    fun {other before} hbefore hafter ↦ ?_, rfl, rfl, rfl, rfl,
    minTimestamp_removeBucket state id bucket.streamPart⟩
  · rw [hget] at hfound
    split_ifs at hfound
    exact ⟨found, hfound, Or.inl rfl⟩
  · rw [hget] at hafter
    split_ifs at hafter with heq
    · rw [heq, hbucket, Option.some.injEq] at hbefore
      exact Or.inl (hbefore ▸ hstored)
    · rw [hbefore] at hafter
      cases hafter

/-- Leaving a bucket as it is, or marking it as stored after its counters were written. -/
theorem sheds_set {state : State} (hheaps : HeapCoherent package state) {bucket changed : Bucket}
    (hbucket : state.buckets.get? bucket.id = some bucket)
    (hchanged : changed = bucket ∨ changed = bucket.setStored ∧ WrittenBy items bucket) :
    Sheds package items state { state with buckets := state.buckets.set bucket.id changed } := by
  have hfields : changed.id = bucket.id ∧ changed.streamPart = bucket.streamPart ∧
      changed.dateCreate = bucket.dateCreate := by
    rcases hchanged with rfl | ⟨rfl, -⟩ <;> exact ⟨rfl, rfl, rfl⟩
  refine ⟨hheaps.set_bucket hbucket hfields.1 hfields.2.1 hfields.2.2,
    fun {other found} hfound ↦ ?_, fun {other before} hbefore hafter ↦ ?_, rfl, rfl, rfl, rfl,
    fun _ ↦ rfl⟩
  · by_cases heq : other = bucket.id
    · subst heq
      rw [OrderedMap.get?_set_self, Option.some.injEq] at hfound
      exact ⟨bucket, hbucket, hfound ▸ hchanged⟩
    · rw [OrderedMap.get?_set_of_ne _ _ heq] at hfound
      exact ⟨found, hfound, Or.inl rfl⟩
  · by_cases heq : other = bucket.id
    · rw [heq, OrderedMap.get?_set_self] at hafter
      cases hafter
    · rw [OrderedMap.get?_set_of_ne _ _ heq, hbefore] at hafter
      cases hafter

theorem sheds_settleStored {state : State} (hheaps : HeapCoherent package state)
    {item : StoreItem} (hitem : item ∈ items) (now : ℤ) :
    Sheds package items state (settleStored package now state item) := by
  unfold settleStored
  split_ifs with hfulfilled
  · split
    · rename_i bucket hbucket
      have hid := hheaps.id_eq hbucket
      rw [← hid] at hbucket
      set stored := if bucket.records = item.columns.records then bucket.setStored else bucket
        with hstored
      have hchanged : stored = bucket ∨ stored = bucket.setStored ∧ WrittenBy items bucket := by
        rw [hstored]
        split_ifs with hrecords
        · exact Or.inr ⟨rfl, item, hitem, hid.symm, hfulfilled, hrecords.symm⟩
        · exact Or.inl rfl
      have hpart : stored.streamPart = bucket.streamPart := by
        rcases hchanged with heq | ⟨heq, -⟩ <;> rw [heq]
        rfl
      have hmarked := sheds_set hheaps hbucket hchanged
      dsimp only
      split_ifs with hidle
      · refine hmarked.trans ?_
        rw [← hpart]
        exact sheds_removeBucket hmarked.heaps (OrderedMap.get?_set_self _ _ _) hidle.2
      · exact hmarked
    · exact Sheds.refl hheaps
  · exact Sheds.refl hheaps

theorem sheds_foldl_settleStored {state : State} (hheaps : HeapCoherent package state)
    (items : List StoreItem) (now : ℤ) :
    Sheds package items state (items.foldl (settleStored package now) state) := by
  -- the induction is over the updates that remain, from a state reached by those before them
  have hfold : ∀ remaining ⊆ items, ∀ {during}, Sheds package items state during →
      Sheds package items state (remaining.foldl (settleStored package now) during) := by
    intro remaining
    induction remaining with
    | nil => exact fun _ _ hduring ↦ hduring
    | cons item remaining ih =>
      intro hsubset during hduring
      obtain ⟨hitem, hsubset⟩ := List.cons_subset.mp hsubset
      exact ih hsubset (hduring.trans (sheds_settleStored hduring.heaps hitem now))
  exact hfold items (List.Subset.refl items) (Sheds.refl hheaps)

theorem sheds_foldl_removeIdle {state : State} (hheaps : HeapCoherent package state) (now : ℤ)
    {buckets : List Bucket} (hnodup : (buckets.map Bucket.id).Nodup)
    (hbuckets : ∀ bucket ∈ buckets, state.buckets.get? bucket.id = some bucket) :
    Sheds package items state (buckets.foldl (removeIdle package now) state) := by
  induction buckets generalizing state with
  | nil => exact Sheds.refl hheaps
  | cons bucket buckets ih =>
    obtain ⟨hbucket, hbuckets⟩ := List.forall_mem_cons.mp hbuckets
    rw [List.map_cons, List.nodup_cons] at hnodup
    rw [List.foldl_cons]
    by_cases hidle : bucket.stored = true ∧ bucket.isAlive now = false
    · have hremoved : Sheds package items state
          (removeBucket package state bucket.id bucket.streamPart) :=
        sheds_removeBucket hheaps hbucket hidle.1
      rw [removeIdle, if_pos hidle]
      refine hremoved.trans (ih hremoved.heaps hnodup.2 fun other hother ↦ ?_)
      have hne : other.id ≠ bucket.id := fun heq ↦
        hnodup.1 (heq ▸ List.mem_map.mpr ⟨other, hother, rfl⟩)
      exact (OrderedMap.get?_delete_of_ne _ hne).trans (hbuckets other hother)
    · rw [removeIdle, if_neg hidle]
      exact ih hheaps hnodup.2 hbuckets

theorem sheds_endStore {state : State} (hheaps : HeapCoherent package state)
    (items : List StoreItem) (now : ℤ) :
    Sheds package items state (endStore package state items now) := by
  have hsettled := sheds_foldl_settleStored hheaps items now
  obtain ⟨hnodup, hvalues⟩ := hsettled.heaps.values_spec
  have hremoved := hsettled.trans (sheds_foldl_removeIdle hsettled.heaps now hnodup hvalues)
  exact ⟨hremoved.heaps.congr rfl fun _ ↦ rfl, hremoved.memory, hremoved.left, hremoved.table,
    hremoved.check, hremoved.usedIds, hremoved.handedOut, hremoved.minTimestamp⟩

/-! ### What the calls change -/

/-- What `getBucketId` changes: the oldest waiting timestamp of the stream part, and the ids that
were handed out. -/
theorem getBucketId_frame (state : State) (streamPart : StreamPart) (timestamp : ℤ) :
    let after := (getBucketId state streamPart timestamp).2
    after.buckets = state.buckets ∧ after.table = state.table ∧ after.usedIds = state.usedIds ∧
      after.check = state.check ∧ after.store = state.store ∧
      (∀ other, after.heap other = state.heap other) ∧
      ∀ entry ∈ after.handedOut, entry ∈ state.handedOut ∨
        entry.1 = streamPart ∧ findBucketId state streamPart timestamp = some entry.2 := by
  dsimp only
  cases hpart : state.streamParts.get? streamPart with
  | none =>
    simp only [getBucketId, hpart]
    refine ⟨trivial, trivial, trivial, trivial, trivial, fun other ↦ ?_,
      fun entry hentry ↦ Or.inl hentry⟩
    rw [heap_set state ⟨[], some timestamp⟩ rfl]
    split_ifs with heq
    · rw [heq, State.heap, hpart]
    · rfl
  | some part =>
    cases hfind : findBucketId state streamPart timestamp with
    | some id =>
      simp only [getBucketId, hpart, hfind]
      refine ⟨trivial, trivial, trivial, trivial, trivial, fun _ ↦ rfl, fun entry hentry ↦ ?_⟩
      rcases List.mem_cons.mp hentry with rfl | hold
      · exact Or.inr ⟨rfl, rfl⟩
      · exact Or.inl hold
    | none =>
      simp only [getBucketId, hpart, hfind]
      refine ⟨trivial, trivial, trivial, trivial, trivial, fun other ↦ ?_,
        fun entry hentry ↦ Or.inl hentry⟩
      rw [heap_set state (part.await timestamp) rfl]
      split_ifs with heq
      · rw [heq, State.heap, hpart]
        rfl
      · rfl

/-- `getBucketId` returns what `findBucketId` finds. -/
theorem getBucketId_fst (state : State) (streamPart : StreamPart)
    (timestamp : ℤ) :
    (getBucketId state streamPart timestamp).1 =
      findBucketId state streamPart timestamp := by
  unfold getBucketId
  cases hpart : state.streamParts.get? streamPart with
  | none =>
    have hheap : state.heap streamPart = [] := by rw [State.heap, hpart]
    simp only [findBucketId, getLatestInMemoryBucket, hheap, List.head?_nil, Option.bind_none]
  | some part => cases hfind : findBucketId state streamPart timestamp <;> rfl

theorem incrementBucket_frame (state : State) (bucketId : BucketId) (size : ℕ)
    (now : ℤ) :
    (incrementBucket state bucketId size now).streamParts = state.streamParts ∧
      (incrementBucket state bucketId size now).check = state.check := by
  unfold incrementBucket
  split <;> exact ⟨rfl, rfl⟩

/-! ### What the check does when it goes on -/

/-- The stream part and the timestamp for which the check awaits a lookup. -/
def checkedFor : CheckPhase → Option (StreamPart × ℤ)
  | .between => none
  | .latest streamPart minTimestamp _ _ => some (streamPart, minTimestamp)
  | .atTimestamp streamPart minTimestamp _ => some (streamPart, minTimestamp)

/-- The stream part and the answer of the lookup, once the table was read. -/
def answerOf : CheckPhase → Option (StreamPart × Option Bucket)
  | .latest streamPart _ _ (some foundBucket) => some (streamPart, foundBucket)
  | .atTimestamp streamPart _ (some foundBucket) => some (streamPart, foundBucket)
  | _ => none

/-- The manager before and after the answer of a lookup was possibly loaded. -/
inductive Loads (package : HeapPackage) (state : State) : Option Bucket → State → Prop
  | nothing (foundBucket : Option Bucket) : Loads package state foundBucket state
  | bucket (found : Bucket) (hnew : state.buckets.get? found.id = none) :
      Loads package state (some found) (pushBucket package state found)

theorem loads_checkFoundBuckets (state : State) (insertNewBucket : Bool)
    (foundBucket : Option Bucket) :
    Loads package state foundBucket
      (checkFoundBuckets package state insertNewBucket foundBucket).1 := by
  cases foundBucket with
  | none => exact .nothing none
  | some found =>
    unfold checkFoundBuckets
    dsimp only
    split_ifs with hhas
    · exact .nothing _
    · exact .bucket found (by simpa [OrderedMap.has] using hhas)

theorem Loads.usedIds {state after : State} {foundBucket : Option Bucket}
    (hloads : Loads package state foundBucket after) : after.usedIds = state.usedIds := by
  cases hloads <;> rfl

/-- When the check goes on, it may load the bucket that its lookup found, and then creates one, or
awaits the lookup for a timestamp that is still not found, or is done with the stream part. -/
theorem resume_cases {state after : State} {run : CheckRun} {id : BucketId} {now : ℤ}
    (hresume : resume package options state run id now = some after) :
    ∃ streamPart minTimestamp foundBucket loaded,
      checkedFor run.phase = some (streamPart, minTimestamp) ∧
      answerOf run.phase = some (streamPart, foundBucket) ∧
      Loads package state foundBucket loaded ∧
      (after = (insertBucket package options loaded streamPart minTimestamp id now).setPhase
          run.remaining .between ∨
        after = loaded.setPhase run.remaining .between ∨
        after = loaded.setPhase run.remaining (.atTimestamp streamPart minTimestamp none) ∧
          findBucketId loaded streamPart minTimestamp = none) := by
  obtain ⟨remaining, phase⟩ := run
  match phase, hresume with
  | .latest streamPart minTimestamp insertNewBucket (some foundBucket), rfl =>
    refine ⟨streamPart, minTimestamp, foundBucket, _, rfl, rfl,
      loads_checkFoundBuckets state insertNewBucket foundBucket, ?_⟩
    unfold resumeLatest
    dsimp only
    split_ifs with hinsert hfind
    · exact Or.inl rfl
    · exact Or.inr (Or.inr ⟨rfl, hfind⟩)
    · exact Or.inr (Or.inl rfl)
  | .atTimestamp streamPart minTimestamp (some foundBucket), rfl =>
    refine ⟨streamPart, minTimestamp, foundBucket, _, rfl, rfl,
      loads_checkFoundBuckets state false foundBucket, ?_⟩
    unfold resumeAtTimestamp
    dsimp only
    split_ifs with hinsert
    · exact Or.inl rfl
    · exact Or.inr (Or.inl rfl)

/-! ### What changes the table -/

/-- The update that a step brings to the table. -/
def appliedUpdate (state : State) : Event → Option StoreItem
  | .applyUpdate index => state.store.bind fun items ↦ items[index]?
  | _ => none

theorem exists_of_appliedUpdate {state : State} {event : Event} {item : StoreItem}
    (happlied : appliedUpdate state event = some item) :
    ∃ items, state.store = some items ∧ item ∈ items := by
  cases event with
  | applyUpdate index =>
    obtain ⟨items, hstore, hitem⟩ := Option.bind_eq_some_iff.mp happlied
    exact ⟨items, hstore, List.mem_of_getElem? hitem⟩
  | _ => cases happlied

theorem table_takeUp (state : State) (streamPart : StreamPart) (remaining : List StreamPart) :
    (takeUp state streamPart remaining).table = state.table := by
  unfold takeUp
  repeat' split
  all_goals rfl

theorem table_resume {state after : State} {run : CheckRun} {id : BucketId} {now : ℤ}
    (hresume : resume package options state run id now = some after) :
    after.table = state.table := by
  obtain ⟨_, _, _, loaded, -, -, hloads, hcases⟩ := resume_cases hresume
  have htable : loaded.table = state.table := by cases hloads <;> rfl
  rcases hcases with rfl | rfl | ⟨rfl, -⟩ <;> exact htable

theorem table_endStore (state : State) (items : List StoreItem) (now : ℤ) :
    (endStore package state items now).table = state.table := by
  have hsettle : ∀ state item, (settleStored package now state item).table = state.table := by
    intro state item
    unfold settleStored
    dsimp only
    split_ifs
    · split
      · split_ifs <;> rfl
      · rfl
    · rfl
  have hremove : ∀ state bucket, (removeIdle package now state bucket).table = state.table := by
    intro state bucket
    unfold removeIdle
    split_ifs <;> rfl
  have hfold : ∀ {Item : Type} (change : State → Item → State) (items : List Item),
      (∀ state item, (change state item).table = state.table) →
        ∀ state, (items.foldl change state).table = state.table := by
    intro Item change items hchange
    induction items with
    | nil => exact fun _ ↦ rfl
    | cons item items ih => exact fun state ↦ (ih _).trans (hchange state item)
  exact (hfold _ _ hremove _).trans (hfold _ _ hsettle _)

/-- Only an update that reaches it changes the table. -/
theorem table_step {state after : State} {event : Event}
    (hstep : step package options state event = some after) :
    after.table = match appliedUpdate state event with
      | some item => state.table.set item.key item.columns
      | none => state.table := by
  cases event with
  | applyUpdate index =>
    obtain ⟨items, hstore, hitems⟩ := Option.bind_eq_some_iff.mp hstep
    obtain ⟨item, hitem, rfl⟩ := Option.map_eq_some_iff.mp hitems
    simp only [appliedUpdate, hstore, Option.bind_some, hitem]
  | getBucketId streamPart timestamp =>
    cases hstep
    exact (getBucketId_frame state streamPart timestamp).2.1
  | incrementBucket bucketId size now =>
    cases hstep
    simp only [appliedUpdate, incrementBucket]
    split <;> rfl
  | takeUp =>
    simp only [step] at hstep
    split at hstep <;> cases hstep
    · exact table_takeUp state _ _
    · rfl
  | evaluate now =>
    obtain ⟨⟨remaining, phase⟩, -, hevaluate⟩ := Option.bind_eq_some_iff.mp hstep
    rcases phase with _ | ⟨_, _, _, _ | _⟩ | ⟨_, _, _ | _⟩ <;> cases hevaluate <;> rfl
  | resume id now =>
    simp only [step] at hstep
    split_ifs at hstep
    obtain ⟨run, -, hresume⟩ := Option.bind_eq_some_iff.mp hstep
    exact table_resume hresume
  | endStore now =>
    obtain ⟨items, -, hend⟩ := Option.bind_eq_some_iff.mp hstep
    split_ifs at hend
    cases hend
    exact table_endStore state items now
  | settleUpdate index fulfilled =>
    obtain ⟨items, -, hitems⟩ := Option.bind_eq_some_iff.mp hstep
    obtain ⟨item, -, hsettle⟩ := Option.bind_eq_some_iff.mp hitems
    split_ifs at hsettle
    cases hsettle
    rfl
  | beginCheck | failLookup | beginStore =>
    simp only [step] at hstep
    split at hstep <;> cases hstep <;> rfl

end PomboStorageNode.Storage.BucketManager
