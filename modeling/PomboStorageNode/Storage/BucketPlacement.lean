import PomboStorageNode.Storage.BucketDates

/-!
# Where messages are placed

`store` of `Storage.ts` asks the bucket manager for a bucket. If there is one, the message goes to
it and its counters are incremented, in one stretch of code; if not, the message waits and the call
is repeated after a while. The system here is that, interleaved with the timers of the manager.

The reads find a row when its bucket starts by the timestamp of the row and no other bucket of the
stream part starts after it and still a whole `BUCKET_LOOKBACK_MS` before the timestamp
(`PlacedIn`). Buckets are created later for other messages, so what is chosen now has to survive
what is created then. `Waiting` is the link: a message that waits, or for which the check is under
way, is no threat to a row that was placed, and cannot become one while it waits, because no row is
placed below it. `rows_stay_placed` is the result over whole runs in which the steps are
`Orderly`, and `placedInOlderBucket` a run in which the array of the heap offers an old bucket
first.
-/

set_option autoImplicit false

namespace PomboStorageNode.Storage.BucketPlacement

open Library Tables BucketManager BucketDates

/-! ### Storing messages -/

/-- What `store` reads of a message: its stream part, its timestamp and the size of its record. -/
structure Message where
  streamPart : StreamPart
  timestamp : ℤ
  size : ℕ
  deriving DecidableEq

/-- The bucket manager, the messages that wait for the next try, and, of the past, the messages
that arrived and the bucket each placed message went to. -/
structure State where
  manager : BucketManager.State
  pendingStores : List Message
  arrived : List Message
  placed : List (Message × BucketId)

/-- `store`, up to the hand-over to the batches. -/
def store (state : State) (message : Message) (now : ℤ) : State :=
  match getBucketId state.manager message.streamPart message.timestamp with
  | (some bucketId, manager) =>
    { state with
      manager := incrementBucket manager bucketId message.size now
      placed := (message, bucketId) :: state.placed }
  | (none, manager) =>
    { state with manager := manager, pendingStores := state.pendingStores ++ [message] }

/-- What can happen: a message arrives, a waiting message is tried again, or the manager takes a
step of its timers. -/
inductive Event
  | arrive (message : Message) (now : ℤ)
  | retry (index : ℕ) (now : ℤ)
  | timer (event : BucketManager.Event)

/-- The step relation. -/
def step (package : HeapPackage) (options : BucketManagerOptions) (state : State) :
    Event → Option State
  | .arrive message now =>
    some (store { state with arrived := message :: state.arrived } message now)
  | .retry index now =>
    state.pendingStores[index]?.map fun message ↦
      store { state with pendingStores := state.pendingStores.eraseIdx index } message now
  | .timer event =>
    if isCall event then none
    else (BucketManager.step package options state.manager event).map fun manager ↦
      { state with manager := manager }

variable {package : HeapPackage} {options : BucketManagerOptions}
  {manager after : BucketManager.State}

/-! ### Where a message may go -/

/-- The row of the message is where the reads look for it. -/
def PlacedIn (manager : BucketManager.State) (message : Message) (bucketId : BucketId) : Prop :=
  ∃ date, Known manager bucketId ⟨message.streamPart, date⟩ ∧ date ≤ message.timestamp ∧
    ∀ other otherDate, Known manager other ⟨message.streamPart, otherDate⟩ →
      otherDate ≤ message.timestamp - bucketLookbackMs → otherDate ≤ date

/-- What the manager offers for a timestamp is in order. If the latest bucket in memory starts after
it, the array of the heap has no bucket that is older than the lookback and newer than the first
one it offers; and no bucket that was forgotten is older than the lookback and newer than one that
may be offered. -/
structure Orderly (manager : BucketManager.State) (streamPart : StreamPart) (timestamp : ℤ) :
    Prop where
  array : ∀ first rest item, manager.heap streamPart = first :: rest →
    timestamp < first.dateCreate → rest.find? (fun item ↦ item.dateCreate ≤ timestamp) = some item →
    ∀ other ∈ rest, other.dateCreate ≤ timestamp - bucketLookbackMs →
      other.dateCreate ≤ item.dateCreate
  forgotten : ∀ first rest item, manager.heap streamPart = first :: rest →
    item ∈ first :: rest → item.dateCreate ≤ timestamp →
    (item = first ∨ timestamp < first.dateCreate) →
    ∀ date columns, manager.table.get? ⟨streamPart, date⟩ = some columns →
      manager.buckets.has columns.id = false → date ≤ timestamp - bucketLookbackMs →
      date ≤ item.dateCreate

/-- The message is less than the lookback older than every message of its stream part that has
arrived. -/
def Timely (state : State) (message : Message) : Prop :=
  ∀ earlier ∈ state.arrived, earlier.streamPart = message.streamPart →
    earlier.timestamp - bucketLookbackMs < message.timestamp

/-- The condition on the steps. An arriving message is timely and finds the manager in order; so
does a message that is tried again, which has to be timely only if it still finds no bucket; and
the check creates no bucket with a date in use. -/
def InOrder (state : State) : Event → Prop
  | .arrive message _ =>
    Timely state message ∧ Orderly state.manager message.streamPart message.timestamp
  | .retry index _ => ∀ message, state.pendingStores[index]? = some message →
    (findBucketId state.manager message.streamPart message.timestamp = none →
      Timely state message) ∧
    Orderly state.manager message.streamPart message.timestamp
  | .timer event => DatesFree state.manager event

/-- What `findBucketId` returns is where the reads look for the message.
Assumes: the manager is in order. -/
theorem placedIn_of_findBucketId (hsound : Sound package manager) {message : Message}
    {bucketId : BucketId}
    (hfind : findBucketId manager message.streamPart message.timestamp = some bucketId)
    (horderly : Orderly manager message.streamPart message.timestamp) :
    PlacedIn manager message bucketId := by
  obtain ⟨latest, bucket, hlatest, hbucket, hpart, hdate, hchoice⟩ :=
    hsound.coherent.findBucketId_eq_some hfind
  obtain ⟨-, -, rest, hheap⟩ := hsound.coherent.latest_eq_some hlatest
  have hmemory : InMemory manager bucketId ⟨message.streamPart, bucket.dateCreate⟩ :=
    ⟨bucket, hbucket, by rw [hpart]⟩
  have hitem := (inMemory_iff_mem_heap hsound.coherent.toHeapCoherent).mp hmemory
  refine ⟨bucket.dateCreate, Or.inl hmemory, hdate, fun other otherDate hother hearly ↦ ?_⟩
  -- a bucket that is in memory is in the array, the others were forgotten
  have hcases : ⟨otherDate, other⟩ ∈ manager.heap message.streamPart ∨ ∃ columns,
      manager.table.get? ⟨message.streamPart, otherDate⟩ = some columns ∧
        manager.buckets.has columns.id = false := by
    rw [← inMemory_iff_mem_heap hsound.coherent.toHeapCoherent]
    cases hhas : manager.buckets.has other with
    | true => exact Or.inl (hsound.named.inMemory_of_has hother hhas)
    | false =>
      rcases hother with hinMemory | ⟨columns, hcolumns, hid⟩
      · exact Or.inl hinMemory
      · exact Or.inr ⟨columns, hcolumns, hid ▸ hhas⟩
  rcases hchoice with ⟨rfl, -⟩ | ⟨hpast, hfirst⟩
  · rcases hcases with hmem | ⟨columns, hcolumns, hhas⟩
    · exact hsound.coherent.le_latest hlatest hmem
    · exact horderly.forgotten _ rest _ hheap List.mem_cons_self hdate (Or.inl rfl) otherDate
        columns hcolumns hhas hearly
  · rw [hheap, List.drop_one, List.tail_cons] at hfirst
    obtain ⟨item, hfound, rfl⟩ := Option.map_eq_some_iff.mp hfirst
    have hrest : item ∈ rest := List.mem_of_find?_eq_some hfound
    have hsame : item.dateCreate = bucket.dateCreate := by
      have hinHeap : item ∈ manager.heap message.streamPart :=
        hheap ▸ List.mem_cons_of_mem _ hrest
      rw [hsound.coherent.item_eq hinHeap hitem rfl]
    rcases hcases with hmem | ⟨columns, hcolumns, hhas⟩
    · rw [← hsame]
      rw [hheap] at hmem
      rcases List.mem_cons.mp hmem with heq | hmem
      · have hlook : (0 : ℤ) ≤ bucketLookbackMs := by decide
        have hlate : otherDate = latest.dateCreate := (HeapItem.mk.inj heq).1
        omega
      · exact horderly.array _ rest item hheap hpast hfound _ hmem hearly
    · rw [← hsame]
      exact horderly.forgotten _ rest item hheap (List.mem_cons_of_mem _ hrest)
        (hsame.trans_le hdate) (Or.inr hpast) otherDate columns hcolumns hhas hearly

theorem placedIn_congr {message : Message} {bucketId : BucketId}
    (hknown : ∀ {id date}, Known after id ⟨message.streamPart, date⟩ ↔
      Known manager id ⟨message.streamPart, date⟩)
    (hplaced : PlacedIn manager message bucketId) : PlacedIn after message bucketId := by
  obtain ⟨date, hbucket, hdate, hnewest⟩ := hplaced
  exact ⟨date, hknown.mpr hbucket, hdate,
    fun other otherDate hother ↦ hnewest other otherDate (hknown.mp hother)⟩

/-! ### Messages that wait -/

/-- The state of the buckets while a message waits: all buckets in memory start after it, or some
bucket starts by it, and the buckets in memory are older or almost full. -/
def Unfound (manager : BucketManager.State) (streamPart : StreamPart) (timestamp : ℤ) : Prop :=
  (∀ id date, InMemory manager id ⟨streamPart, date⟩ → timestamp < date) ∨
    ∃ date ≤ timestamp, (∃ id, Known manager id ⟨streamPart, date⟩) ∧
      ∀ id bucket, manager.buckets.get? id = some bucket → bucket.streamPart = streamPart →
        bucket.dateCreate < date ∨ bucket.dateCreate = date ∧ bucket.isAlmostFull = true

theorem unfound_of_findBucketId (hsound : Sound package manager) {streamPart : StreamPart}
    {timestamp : ℤ} (hfind : findBucketId manager streamPart timestamp = none) :
    Unfound manager streamPart timestamp := by
  have hcoherent := hsound.coherent
  cases hlatest : getLatestInMemoryBucket manager streamPart with
  | none =>
    refine Or.inl fun id date hid ↦ ?_
    rw [inMemory_iff_mem_heap hcoherent.toHeapCoherent, hcoherent.latest_eq_none hlatest] at hid
    cases hid
  | some latest =>
    obtain ⟨hget, hpart, -⟩ := hcoherent.latest_eq_some hlatest
    have hmemory : InMemory manager latest.id ⟨streamPart, latest.dateCreate⟩ :=
      ⟨latest, hget, by rw [hpart]⟩
    rcases hcoherent.findBucketId_eq_none hlatest hfind with ⟨hfull, hdate⟩ | hlate
    · refine Or.inr ⟨latest.dateCreate, hdate, ⟨latest.id, Or.inl hmemory⟩, ?_⟩
      intro id bucket hbucket hbucketPart
      have hbucketMemory : InMemory manager id ⟨streamPart, bucket.dateCreate⟩ :=
        ⟨bucket, hbucket, by rw [hbucketPart]⟩
      have hle := hcoherent.le_latest hlatest ((inMemory_iff_mem_heap hcoherent.toHeapCoherent).mp hbucketMemory)
      refine hle.lt_or_eq.imp_right fun heq ↦ ⟨heq, ?_⟩
      -- one bucket for one date
      obtain rfl := hsound.named.id_unique (heq ▸ Or.inl hbucketMemory) (Or.inl hmemory)
      rw [Option.some.inj (hbucket.symm.trans hget)]
      exact hfull
    · exact Or.inl fun id date hid ↦ hlate _ ((inMemory_iff_mem_heap hcoherent.toHeapCoherent).mp hid)

theorem Unfound.keeps {streamPart : StreamPart} {timestamp : ℤ}
    (hunfound : Unfound manager streamPart timestamp) (hkeeps : Keeps manager after) :
    Unfound after streamPart timestamp := by
  rcases hunfound with hlate | ⟨date, hdate, ⟨id, hid⟩, hmemory⟩
  · exact Or.inl fun id date hid ↦ hlate id date (hkeeps.inMemory hid)
  · refine Or.inr ⟨date, hdate, ⟨id, hkeeps.known.mpr hid⟩, fun other bucket hbucket hpart ↦ ?_⟩
    obtain ⟨before, hbefore, hpartEq, hdateEq, hfull⟩ := hkeeps.memory hbucket
    rw [hdateEq]
    exact (hmemory other before hbefore (hpartEq.symm.trans hpart)).imp_right
      fun ⟨heq, hbeforeFull⟩ ↦ ⟨heq, hfull hbeforeFull⟩

/-- A row that is placed while a message waits is not placed below it, unless the message is within
the lookback. -/
theorem Unfound.le_of_placed (hsound : Sound package manager) {message : Message}
    {bucketId : BucketId} {waiting date : ℤ}
    (hunfound : Unfound manager message.streamPart waiting)
    (hfind : findBucketId manager message.streamPart message.timestamp = some bucketId)
    (hplaced : PlacedIn manager message bucketId)
    (hknown : Known manager bucketId ⟨message.streamPart, date⟩)
    (hearly : waiting ≤ message.timestamp - bucketLookbackMs) : waiting ≤ date := by
  obtain ⟨latest, bucket, hlatest, hbucket, hpart, -, hchoice⟩ :=
    hsound.coherent.findBucketId_eq_some hfind
  have hmemory : InMemory manager bucketId ⟨message.streamPart, bucket.dateCreate⟩ :=
    ⟨bucket, hbucket, by rw [hpart]⟩
  obtain rfl : date = bucket.dateCreate :=
    (BucketKey.mk.inj (hsound.named.key_unique hknown (Or.inl hmemory))).2
  rcases hunfound with hlate | ⟨start, hstart, ⟨other, hother⟩, holder⟩
  · exact (hlate bucketId _ hmemory).le
  · obtain ⟨placedDate, hplacedKnown, -, hnewest⟩ := hplaced
    obtain rfl : placedDate = bucket.dateCreate :=
      (BucketKey.mk.inj (hsound.named.key_unique hplacedKnown hknown)).2
    have hge := hnewest other start hother (hstart.trans hearly)
    -- the bucket is almost full, and no bucket in memory is newer: it is not the one to be offered
    exfalso
    have hfull : bucket.isAlmostFull = true := by
      rcases holder bucketId bucket hbucket hpart with hlt | ⟨-, hfull⟩
      · exact absurd hge (not_le.mpr hlt)
      · exact hfull
    rcases hchoice with ⟨rfl, hroom⟩ | ⟨hpast, -⟩
    · rw [hfull] at hroom
      cases hroom
    · obtain ⟨hget, hlatestPart, -⟩ := hsound.coherent.latest_eq_some hlatest
      have hlook : (0 : ℤ) ≤ bucketLookbackMs := by decide
      have hlatestDate : latest.dateCreate ≤ start := by
        rcases holder latest.id latest hget hlatestPart with hlt | ⟨heq, -⟩
        · exact hlt.le
        · exact heq.le
      omega

/-- What is known of a timestamp for which a bucket may be created: a bucket with that date cuts off
no row that was placed, and no row is placed that it would cut off. -/
structure Waiting (state : State) (streamPart : StreamPart) (timestamp : ℤ) : Prop where
  harmless : ∀ entry ∈ state.placed, entry.1.streamPart = streamPart → ∀ date,
    Known state.manager entry.2 ⟨streamPart, date⟩ →
    timestamp ≤ entry.1.timestamp - bucketLookbackMs → timestamp ≤ date
  unfound : Unfound state.manager streamPart timestamp

/-- The oldest timestamp that waits in a stream part. -/
def minTimestampOf (manager : BucketManager.State) (streamPart : StreamPart) : Option ℤ :=
  (manager.streamParts.get? streamPart).bind StreamPartState.minTimestamp

/-- The invariant. -/
structure Invariant (package : HeapPackage) (state : State) : Prop where
  manager : BucketDates.Invariant package state.manager
  arrived : ∀ entry ∈ state.placed, entry.1 ∈ state.arrived
  pending : ∀ message ∈ state.pendingStores, message ∈ state.arrived
  placed : ∀ entry ∈ state.placed, PlacedIn state.manager entry.1 entry.2
  waiting : ∀ streamPart timestamp, minTimestampOf state.manager streamPart = some timestamp →
    Waiting state streamPart timestamp
  checking : ∀ run streamPart timestamp, state.manager.check = some run →
    checkedFor run.phase = some (streamPart, timestamp) → Waiting state streamPart timestamp

variable {state : State}

/-- The steps that create no bucket keep what is known of a timestamp. -/
theorem Waiting.keeps {streamPart : StreamPart} {timestamp : ℤ}
    (hwaiting : Waiting state streamPart timestamp) (hkeeps : Keeps state.manager after)
    {next : State} (hmanager : next.manager = after) (hplaced : next.placed = state.placed) :
    Waiting next streamPart timestamp := by
  refine ⟨fun entry hentry hpart date hknown ↦ ?_, hmanager ▸ hwaiting.unfound.keeps hkeeps⟩
  rw [hplaced] at hentry
  rw [hmanager] at hknown
  exact hwaiting.harmless entry hentry hpart date (hkeeps.known.mp hknown)

/-- The steps that create no bucket keep the invariant, as far as no timestamp becomes one for which
a bucket may be created. -/
theorem Invariant.of_keeps (hinvariant : Invariant package state)
    (hmanager : BucketDates.Invariant package after) (hkeeps : Keeps state.manager after)
    (hmin : ∀ streamPart, minTimestampOf after streamPart =
      minTimestampOf state.manager streamPart)
    (hcheck : ∀ run streamPart timestamp, after.check = some run →
      checkedFor run.phase = some (streamPart, timestamp) → Waiting state streamPart timestamp) :
    Invariant package { state with manager := after } := by
  refine ⟨hmanager, hinvariant.arrived, hinvariant.pending, fun entry hentry ↦ ?_,
    fun streamPart timestamp hwaits ↦ ?_, fun run streamPart timestamp hrun hchecked ↦ ?_⟩
  · exact placedIn_congr hkeeps.known (hinvariant.placed entry hentry)
  · rw [hmin] at hwaits
    exact (hinvariant.waiting streamPart timestamp hwaits).keeps hkeeps rfl rfl
  · exact (hcheck run streamPart timestamp hrun hchecked).keeps hkeeps rfl rfl

/-! ### Steps of `store` -/

/-- A timestamp that waits after `getBucketId` waited before, or is the new one. -/
theorem minTimestampOf_getBucketId {streamPart other : StreamPart} {timestamp waiting : ℤ}
    (hwaits : minTimestampOf (getBucketId manager streamPart timestamp).2 other = some waiting) :
    minTimestampOf manager other = some waiting ∨
      other = streamPart ∧ waiting = timestamp ∧
        findBucketId manager streamPart timestamp = none := by
  have hfst := getBucketId_fst manager streamPart timestamp
  unfold getBucketId at hwaits hfst
  cases hpart : manager.streamParts.get? streamPart with
  | none =>
    simp only [hpart, minTimestampOf] at hwaits hfst ⊢
    by_cases heq : other = streamPart
    · subst heq
      rw [OrderedMap.get?_set_self, Option.bind_some, Option.some.injEq] at hwaits
      exact Or.inr ⟨rfl, hwaits.symm, hfst.symm⟩
    · rw [OrderedMap.get?_set_of_ne _ _ heq] at hwaits
      exact Or.inl hwaits
  | some part =>
    cases hfind : findBucketId manager streamPart timestamp with
    | some id =>
      simp only [hpart, hfind] at hwaits
      exact Or.inl hwaits
    | none =>
      simp only [hpart, hfind, minTimestampOf] at hwaits ⊢
      by_cases heq : other = streamPart
      · subst heq
        rw [OrderedMap.get?_set_self, Option.bind_some, StreamPartState.await,
          Option.some.injEq] at hwaits
        rw [hpart, Option.bind_some]
        cases hmin : part.minTimestamp with
        | none =>
          rw [hmin] at hwaits
          exact Or.inr ⟨rfl, hwaits.symm, trivial⟩
        | some oldest =>
          simp only [hmin] at hwaits
          rcases le_total oldest timestamp with hle | hle
          · exact Or.inl (by rw [← hwaits, min_eq_left hle])
          · exact Or.inr ⟨rfl, by rw [← hwaits, min_eq_right hle], trivial⟩
      · rw [OrderedMap.get?_set_of_ne _ _ heq] at hwaits
        exact Or.inl hwaits

/-- A timestamp that waits while a row is placed. -/
theorem Waiting.place (hsound : Sound package state.manager) {message : Message}
    {bucketId : BucketId} {streamPart : StreamPart} {timestamp : ℤ}
    (hfind : findBucketId state.manager message.streamPart message.timestamp = some bucketId)
    (hplaced : PlacedIn state.manager message bucketId)
    (hwaiting : Waiting state streamPart timestamp) (hkeeps : Keeps state.manager after) :
    Waiting { state with manager := after, placed := (message, bucketId) :: state.placed }
      streamPart timestamp := by
  refine ⟨fun entry hentry hpart date hknown hearly ↦ ?_, hwaiting.unfound.keeps hkeeps⟩
  have hbefore := hkeeps.known.mp hknown
  rcases List.mem_cons.mp hentry with rfl | hold
  · subst hpart
    exact hwaiting.unfound.le_of_placed hsound hfind hplaced hbefore hearly
  · exact hwaiting.harmless entry hold hpart date hbefore hearly

/-- `store`, by what `findBucketId` finds. -/
theorem store_eq (state : State) (message : Message) (now : ℤ) :
    store state message now =
      let asked := (getBucketId state.manager message.streamPart message.timestamp).2
      match findBucketId state.manager message.streamPart message.timestamp with
      | some bucketId =>
        { state with
          manager := incrementBucket asked bucketId message.size now
          placed := (message, bucketId) :: state.placed }
      | none => { state with
          manager := asked
          pendingStores := state.pendingStores ++ [message] } := by
  unfold store
  rw [← getBucketId_fst]
  rcases getBucketId state.manager message.streamPart message.timestamp with ⟨found, asked⟩
  cases found <;> rfl

theorem Invariant.store (hinvariant : Invariant package state) {message : Message} (now : ℤ)
    (harrived : message ∈ state.arrived)
    (htimely : findBucketId state.manager message.streamPart message.timestamp = none →
      Timely state message)
    (horderly : Orderly state.manager message.streamPart message.timestamp) :
    Invariant package (store state message now) := by
  have hsound := hinvariant.manager.toSound
  obtain ⟨hbuckets, htable, hused, hcheck, -⟩ :=
    getBucketId_frame state.manager message.streamPart message.timestamp
  have hasked := hinvariant.manager.getBucketId message.streamPart message.timestamp
  have hkeepsAsked := Keeps.of_same hbuckets htable hused
  rw [store_eq]
  dsimp only
  split
  · rename_i bucketId hfind
    have hplaced := placedIn_of_findBucketId hsound hfind horderly
    have hkeeps := hkeepsAsked.trans (keeps_incrementBucket bucketId message.size now)
    obtain ⟨hparts, hsameCheck⟩ := incrementBucket_frame
      (getBucketId state.manager message.streamPart message.timestamp).2 bucketId message.size now
    refine ⟨hasked.incrementBucket bucketId message.size now, fun entry hentry ↦ ?_,
      hinvariant.pending, fun entry hentry ↦ ?_, fun streamPart timestamp hwaits ↦ ?_,
      fun run streamPart timestamp hrun hchecked ↦ ?_⟩
    · rcases List.mem_cons.mp hentry with rfl | hold
      · exact harrived
      · exact hinvariant.arrived entry hold
    · rcases List.mem_cons.mp hentry with rfl | hold
      · exact placedIn_congr hkeeps.known hplaced
      · exact placedIn_congr hkeeps.known (hinvariant.placed entry hold)
    · rw [minTimestampOf, hparts] at hwaits
      rcases minTimestampOf_getBucketId hwaits with hold | ⟨-, -, hnone⟩
      · exact (hinvariant.waiting streamPart timestamp hold).place hsound hfind hplaced hkeeps
      · rw [hfind] at hnone
        cases hnone
    · rw [hsameCheck, hcheck] at hrun
      exact (hinvariant.checking run streamPart timestamp hrun hchecked).place hsound hfind hplaced
        hkeeps
  · rename_i hfind
    refine ⟨hasked, hinvariant.arrived, fun waiting hwaiting ↦ ?_, fun entry hentry ↦ ?_,
      fun streamPart timestamp hwaits ↦ ?_, fun run streamPart timestamp hrun hchecked ↦ ?_⟩
    · rcases List.mem_append.mp hwaiting with hold | hnew
      · exact hinvariant.pending waiting hold
      · rw [List.mem_singleton.mp hnew]
        exact harrived
    · exact placedIn_congr hkeepsAsked.known (hinvariant.placed entry hentry)
    · rcases minTimestampOf_getBucketId hwaits with hold | ⟨rfl, rfl, -⟩
      · exact (hinvariant.waiting streamPart timestamp hold).keeps hkeepsAsked rfl rfl
      · refine ⟨fun entry hentry hpart date hknown hearly ↦ ?_,
          (unfound_of_findBucketId hsound hfind).keeps hkeepsAsked⟩
        have hlate := htimely hfind entry.1 (hinvariant.arrived entry hentry) hpart
        exact absurd hearly (not_le.mpr hlate)
    · rw [hcheck] at hrun
      exact (hinvariant.checking run streamPart timestamp hrun hchecked).keeps hkeepsAsked rfl rfl

/-! ### Steps of the check -/

theorem loads_sound {streamPart : StreamPart} {found : Option Bucket}
    (hloads : Loads package manager found after) (hsound : Sound package manager)
    (hanswers : ∀ bucket, found = some bucket → Answers manager streamPart bucket) :
    Sound package after := by
  cases hloads with
  | nothing => exact hsound
  | bucket bucket hnew => exact hsound.pushBucket (hanswers bucket rfl) hnew

theorem loads_known {streamPart : StreamPart} {found : Option Bucket}
    (hloads : Loads package manager found after)
    (hanswers : ∀ bucket, found = some bucket → Answers manager streamPart bucket)
    {id : BucketId} {key : BucketKey} : Known after id key ↔ Known manager id key := by
  cases hloads with
  | nothing => rfl
  | bucket bucket hnew => exact (hanswers bucket rfl).known_pushBucket hnew

/-- What a bucket taken into memory leaves as it was: the other stream parts. -/
theorem unfound_pushBucket {bucket : Bucket} (hnew : manager.buckets.get? bucket.id = none)
    {streamPart : StreamPart} (hother : streamPart ≠ bucket.streamPart) {timestamp : ℤ}
    (hunfound : Unfound manager streamPart timestamp) :
    Unfound (pushBucket package manager bucket) streamPart timestamp := by
  rcases hunfound with hlate | ⟨date, hdate, ⟨id, hid⟩, hmemory⟩
  · refine Or.inl fun id date hid ↦ ?_
    rcases (inMemory_pushBucket hnew).mp hid with hold | ⟨-, hkey⟩
    · exact hlate id date hold
    · exact absurd (BucketKey.mk.inj hkey).1 hother
  · refine Or.inr ⟨date, hdate, ⟨id, (known_pushBucket hnew).mpr (Or.inl hid)⟩, ?_⟩
    intro other found hfound hpart
    change (manager.buckets.set bucket.id bucket).get? other = some found at hfound
    by_cases heq : other = bucket.id
    · rw [heq, OrderedMap.get?_set_self, Option.some.injEq] at hfound
      exact absurd (hfound ▸ hpart).symm hother
    · rw [OrderedMap.get?_set_of_ne _ _ heq] at hfound
      exact hmemory other found hfound hpart

/-- A stream part no longer waits after a bucket was taken into memory for it. -/
theorem minTimestampOf_pushBucket {bucket : Bucket} {streamPart : StreamPart} {timestamp : ℤ}
    (hwaits : minTimestampOf (pushBucket package manager bucket) streamPart = some timestamp) :
    streamPart ≠ bucket.streamPart ∧ minTimestampOf manager streamPart = some timestamp := by
  unfold minTimestampOf pushBucket at hwaits
  dsimp only at hwaits
  by_cases heq : streamPart = bucket.streamPart
  · rw [heq, OrderedMap.get?_set_self] at hwaits
    cases hwaits
  · rw [OrderedMap.get?_set_of_ne _ _ heq] at hwaits
    exact ⟨heq, hwaits⟩

/-- The part of the invariant that does not depend on where the check stands, for a state of the
manager in the course of a step. -/
structure Settled (state : State) (manager : BucketManager.State) : Prop where
  placed : ∀ entry ∈ state.placed, PlacedIn manager entry.1 entry.2
  waiting : ∀ streamPart timestamp, minTimestampOf manager streamPart = some timestamp →
    Waiting { state with manager := manager } streamPart timestamp

theorem Settled.setPhase (hsettled : Settled state manager) (remaining : List StreamPart)
    (phase : CheckPhase) : Settled state (manager.setPhase remaining phase) := by
  have hkeeps : Keeps manager (manager.setPhase remaining phase) := Keeps.of_same rfl rfl rfl
  exact ⟨hsettled.placed, fun streamPart timestamp hwaits ↦
    (hsettled.waiting streamPart timestamp hwaits).keeps hkeeps rfl rfl⟩

theorem Invariant.loads (hinvariant : Invariant package state) {streamPart : StreamPart}
    {found : Option Bucket} (hloads : Loads package state.manager found after)
    (hanswers : ∀ bucket, found = some bucket → Answers state.manager streamPart bucket) :
    Settled state after := by
  have hknown : ∀ {id key}, Known after id key ↔ Known state.manager id key :=
    loads_known hloads hanswers
  refine ⟨fun entry hentry ↦ placedIn_congr hknown (hinvariant.placed entry hentry), ?_⟩
  intro other timestamp hwaits
  cases hloads with
  | nothing => exact hinvariant.waiting other timestamp hwaits
  | bucket bucket hnew =>
    obtain ⟨hne, hbefore⟩ := minTimestampOf_pushBucket hwaits
    have hwaiting := hinvariant.waiting other timestamp hbefore
    refine ⟨fun entry hentry hpart date hdate ↦ ?_, unfound_pushBucket hnew hne hwaiting.unfound⟩
    exact hwaiting.harmless entry hentry hpart date (hknown.mp hdate)

/-- A bucket is created for a timestamp at which it cuts off no row. -/
theorem Settled.insertBucket (hsettled : Settled state manager) (hnamed : Named manager)
    {streamPart : StreamPart} {minTimestamp : ℤ} {id : BucketId} (now : ℤ)
    (hfresh : id ∉ manager.usedIds)
    (hharmless : ∀ entry ∈ state.placed, entry.1.streamPart = streamPart → ∀ date,
      Known manager entry.2 ⟨streamPart, date⟩ →
      minTimestamp ≤ entry.1.timestamp - bucketLookbackMs → minTimestamp ≤ date) :
    Settled state (insertBucket package options manager streamPart minTimestamp id now) := by
  have hknown : ∀ {other key}, Known (BucketManager.insertBucket package options manager streamPart
      minTimestamp id now) other key ↔ Known manager other key ∨
        other = id ∧ key = ⟨streamPart, minTimestamp⟩ := known_insertBucket hnamed hfresh
  refine ⟨fun entry hentry ↦ ?_, fun other timestamp hwaits ↦ ?_⟩
  · obtain ⟨date, hbucket, hdate, hnewest⟩ := hsettled.placed entry hentry
    refine ⟨date, hknown.mpr (Or.inl hbucket), hdate, fun other otherDate hother hearly ↦ ?_⟩
    rcases hknown.mp hother with hold | ⟨-, hkey⟩
    · exact hnewest other otherDate hold hearly
    · obtain ⟨hpart, rfl⟩ := BucketKey.mk.inj hkey
      exact hharmless entry hentry hpart date (hpart ▸ hbucket) hearly
  · obtain ⟨hne, hbefore⟩ := minTimestampOf_pushBucket hwaits
    have hwaiting := hsettled.waiting other timestamp hbefore
    refine ⟨fun entry hentry hpart date hdate ↦ ?_, ?_⟩
    · rcases hknown.mp hdate with hold | ⟨-, hkey⟩
      · exact hwaiting.harmless entry hentry hpart date hold
      · exact absurd (BucketKey.mk.inj hkey).1 hne
    · have hnew : OrderedMap.get?
          (BucketManager.State.buckets { manager with usedIds := id :: manager.usedIds })
          (Bucket.create options now id streamPart 0 0 minTimestamp).id = none :=
        hnamed.get?_eq_none hfresh
      exact unfound_pushBucket hnew hne hwaiting.unfound

theorem Invariant.resume (hinvariant : Invariant package state) {run : CheckRun} {id : BucketId}
    {now : ℤ} (hrun : state.manager.check = some run) (hfresh : id ∉ state.manager.usedIds)
    (hresume : BucketManager.resume package options state.manager run id now = some after)
    (hmanager : BucketDates.Invariant package after) :
    Invariant package { state with manager := after } := by
  obtain ⟨streamPart, minTimestamp, found, loaded, hchecked, hanswered, hloads, hcases⟩ :=
    resume_cases hresume
  have hanswers : ∀ bucket, found = some bucket → Answers state.manager streamPart bucket :=
    fun bucket hbucket ↦ (hinvariant.manager.phase run hrun).answers (hbucket ▸ hanswered)
  have hwaiting := hinvariant.checking run streamPart minTimestamp hrun hchecked
  have hsound := loads_sound hloads hinvariant.manager.toSound hanswers
  have hsettled := hinvariant.loads hloads hanswers
  have hharmless : ∀ entry ∈ state.placed, entry.1.streamPart = streamPart → ∀ date,
      Known loaded entry.2 ⟨streamPart, date⟩ →
      minTimestamp ≤ entry.1.timestamp - bucketLookbackMs → minTimestamp ≤ date :=
    fun entry hentry hpart date hdate ↦
      hwaiting.harmless entry hentry hpart date ((loads_known hloads hanswers).mp hdate)
  rcases hcases with rfl | rfl | ⟨rfl, hfind⟩
  · have hcreated : Settled state
        (insertBucket package options loaded streamPart minTimestamp id now) :=
      hsettled.insertBucket hsound.named now (hloads.usedIds ▸ hfresh) hharmless
    have hdone := hcreated.setPhase run.remaining .between
    refine ⟨hmanager, hinvariant.arrived, hinvariant.pending, hdone.placed, hdone.waiting, ?_⟩
    rintro _ _ _ ⟨⟩ ⟨⟩
  · have hdone := hsettled.setPhase run.remaining .between
    refine ⟨hmanager, hinvariant.arrived, hinvariant.pending, hdone.placed, hdone.waiting, ?_⟩
    rintro _ _ _ ⟨⟩ ⟨⟩
  · have hnext := hsettled.setPhase run.remaining (.atTimestamp streamPart minTimestamp none)
    refine ⟨hmanager, hinvariant.arrived, hinvariant.pending, hnext.placed, hnext.waiting, ?_⟩
    rintro _ _ _ ⟨⟩ ⟨⟩
    exact ⟨hharmless, unfound_of_findBucketId hsound hfind⟩

/-- The check takes up a stream part: what it goes on with is what waits there. -/
theorem Invariant.takeUp (hinvariant : Invariant package state) {streamPart : StreamPart}
    {remaining : List StreamPart}
    (hmanager : BucketDates.Invariant package
      (takeUp state.manager streamPart remaining)) :
    Invariant package
      { state with manager := takeUp state.manager streamPart remaining } := by
  obtain ⟨phase, hafter, hphase⟩ : ∃ phase,
      BucketManager.takeUp state.manager streamPart remaining =
        state.manager.setPhase remaining phase ∧
      ∀ other timestamp, checkedFor phase = some (other, timestamp) →
        minTimestampOf state.manager other = some timestamp := by
    unfold BucketManager.takeUp
    cases hmin : (state.manager.streamParts.get? streamPart).bind
        StreamPartState.minTimestamp with
    | none => exact ⟨_, rfl, nofun⟩
    | some minTimestamp =>
      have hchecked : ∀ other timestamp, some (streamPart, minTimestamp) = some (other, timestamp) →
          minTimestampOf state.manager other = some timestamp := by
        rintro _ _ ⟨⟩
        exact hmin
      dsimp only
      repeat' split
      · exact ⟨_, rfl, hchecked⟩
      · exact ⟨_, rfl, hchecked⟩
      · exact ⟨_, rfl, hchecked⟩
      · exact ⟨_, rfl, nofun⟩
  rw [hafter] at hmanager ⊢
  refine hinvariant.of_keeps hmanager (Keeps.of_same rfl rfl rfl) (fun _ ↦ rfl) ?_
  rintro _ other timestamp ⟨⟩ hchecked
  exact hinvariant.waiting other timestamp (hphase other timestamp hchecked)

/-- Every step of the timers that creates no bucket with a date in use keeps the invariant. -/
theorem Invariant.timer (hinvariant : Invariant package state) {event : BucketManager.Event}
    (hcall : isCall event = false) (hfree : DatesFree state.manager event)
    (hstep : BucketManager.step package options state.manager event = some after) :
    Invariant package { state with manager := after } := by
  have hmanager := hinvariant.manager.step hfree hstep
  have hsame : ∀ {run streamPart timestamp}, state.manager.check = some run →
      checkedFor run.phase = some (streamPart, timestamp) → Waiting state streamPart timestamp :=
    fun hrun hchecked ↦ hinvariant.checking _ _ _ hrun hchecked
  cases event with
  | getBucketId => cases hcall
  | incrementBucket => cases hcall
  | beginCheck =>
    simp only [BucketManager.step] at hstep
    split at hstep
    · cases hstep
      refine hinvariant.of_keeps hmanager (Keeps.of_same rfl rfl rfl) (fun _ ↦ rfl) ?_
      rintro _ _ _ ⟨⟩ ⟨⟩
    · cases hstep
  | takeUp =>
    simp only [BucketManager.step] at hstep
    split at hstep
    · rename_i streamPart remaining hrun
      cases hstep
      exact hinvariant.takeUp hmanager
    · cases hstep
      refine hinvariant.of_keeps hmanager (Keeps.of_same rfl rfl rfl) (fun _ ↦ rfl) ?_
      rintro _ _ _ ⟨⟩ ⟨⟩
    · cases hstep
  | evaluate now =>
    obtain ⟨⟨remaining, phase⟩, hrun, hevaluate⟩ := Option.bind_eq_some_iff.mp hstep
    rcases phase with _ | ⟨_, _, _, _ | _⟩ | ⟨_, _, _ | _⟩ <;> cases hevaluate
    · refine hinvariant.of_keeps hmanager (Keeps.of_same rfl rfl rfl) (fun _ ↦ rfl) ?_
      rintro _ _ _ ⟨⟩ ⟨⟩
      exact hsame hrun rfl
    · refine hinvariant.of_keeps hmanager (Keeps.of_same rfl rfl rfl) (fun _ ↦ rfl) ?_
      rintro _ _ _ ⟨⟩ ⟨⟩
      exact hsame hrun rfl
  | resume id now =>
    simp only [BucketManager.step] at hstep
    split_ifs at hstep with hfresh
    obtain ⟨run, hrun, hresume⟩ := Option.bind_eq_some_iff.mp hstep
    exact hinvariant.resume hrun hfresh hresume hmanager
  | failLookup =>
    simp only [BucketManager.step] at hstep
    split at hstep <;> cases hstep <;>
      refine hinvariant.of_keeps hmanager (Keeps.of_same rfl rfl rfl) (fun _ ↦ rfl) ?_ <;>
      rintro _ _ _ ⟨⟩ ⟨⟩
  | beginStore =>
    simp only [BucketManager.step] at hstep
    split at hstep
    · cases hstep
      exact hinvariant.of_keeps hmanager (Keeps.of_same rfl rfl rfl) (fun _ ↦ rfl)
        fun _ _ _ ↦ hsame
    · cases hstep
  | applyUpdate index =>
    obtain ⟨items, hstore, hitems⟩ := Option.bind_eq_some_iff.mp hstep
    obtain ⟨item, hitem, rfl⟩ := Option.map_eq_some_iff.mp hitems
    have hmemory := (hinvariant.manager.updating items hstore item (List.mem_of_getElem? hitem)).1
    exact hinvariant.of_keeps hmanager (keeps_applyUpdate hinvariant.manager.named _ hmemory)
      (fun _ ↦ rfl) fun _ _ _ ↦ hsame
  | settleUpdate index fulfilled =>
    obtain ⟨items, hstore, hitems⟩ := Option.bind_eq_some_iff.mp hstep
    obtain ⟨item, hitem, hsettle⟩ := Option.bind_eq_some_iff.mp hitems
    split_ifs at hsettle
    cases hsettle
    exact hinvariant.of_keeps hmanager (Keeps.of_same rfl rfl rfl) (fun _ ↦ rfl)
      fun _ _ _ ↦ hsame
  | endStore now =>
    obtain ⟨items, hstore, hend⟩ := Option.bind_eq_some_iff.mp hstep
    split_ifs at hend
    cases hend
    have hsheds := sheds_endStore hinvariant.manager.coherent.toHeapCoherent items now
    have hkeeps := keeps_of_sheds hsheds hinvariant.manager.coherent hinvariant.manager.named
      (hinvariant.manager.updating items hstore)
    refine hinvariant.of_keeps hmanager hkeeps hsheds.minTimestamp ?_
    intro run streamPart timestamp hrun hchecked
    rw [hsheds.check] at hrun
    exact hsame hrun hchecked

/-! ### Runs -/

/-- The node right after its start. -/
structure Start (state : State) : Prop where
  manager : BucketDates.Start state.manager
  pendingStores : state.pendingStores = []
  arrived : state.arrived = []
  placed : state.placed = []

theorem Start.invariant (hstart : Start state) : Invariant package state := by
  refine ⟨hstart.manager.invariant, ?_, ?_, ?_, fun streamPart timestamp hwaits ↦ ?_,
    fun run streamPart timestamp hrun ↦ ?_⟩
  · rw [hstart.placed]
    exact nofun
  · rw [hstart.pendingStores]
    exact nofun
  · rw [hstart.placed]
    exact nofun
  · rw [minTimestampOf, hstart.manager.streamParts] at hwaits
    cases hwaits
  · rw [hstart.manager.check] at hrun
    cases hrun

/-- Every step in order keeps the invariant. -/
theorem Invariant.step {event : Event} {next : State} (hinvariant : Invariant package state)
    (hinOrder : InOrder state event)
    (hstep : BucketPlacement.step package options state event = some next) :
    Invariant package next := by
  cases event with
  | arrive message now =>
    cases hstep
    obtain ⟨htimely, horderly⟩ := hinOrder
    have harriving : Invariant package { state with arrived := message :: state.arrived } := by
      refine ⟨hinvariant.manager, fun entry hentry ↦ ?_, fun waiting hwaiting ↦ ?_,
        hinvariant.placed, fun streamPart timestamp hwaits ↦ ?_,
        fun run streamPart timestamp hrun hchecked ↦ ?_⟩
      · exact List.mem_cons_of_mem _ (hinvariant.arrived entry hentry)
      · exact List.mem_cons_of_mem _ (hinvariant.pending waiting hwaiting)
      · exact (hinvariant.waiting streamPart timestamp hwaits).keeps (Keeps.of_same rfl rfl rfl)
          rfl rfl
      · exact (hinvariant.checking run streamPart timestamp hrun hchecked).keeps
          (Keeps.of_same rfl rfl rfl) rfl rfl
    refine harriving.store now List.mem_cons_self (fun _ earlier hearlier hpart ↦ ?_) horderly
    rcases List.mem_cons.mp hearlier with rfl | hold
    · have hlook : (0 : ℤ) < bucketLookbackMs := by decide
      omega
    · exact htimely earlier hold hpart
  | retry index now =>
    obtain ⟨message, hmessage, rfl⟩ := Option.map_eq_some_iff.mp hstep
    obtain ⟨htimely, horderly⟩ := hinOrder message hmessage
    have hretrying : Invariant package
        { state with pendingStores := state.pendingStores.eraseIdx index } := by
      refine ⟨hinvariant.manager, hinvariant.arrived, fun waiting hwaiting ↦ ?_,
        hinvariant.placed, fun streamPart timestamp hwaits ↦ ?_,
        fun run streamPart timestamp hrun hchecked ↦ ?_⟩
      · exact hinvariant.pending waiting (List.mem_of_mem_eraseIdx hwaiting)
      · exact (hinvariant.waiting streamPart timestamp hwaits).keeps (Keeps.of_same rfl rfl rfl)
          rfl rfl
      · exact (hinvariant.checking run streamPart timestamp hrun hchecked).keeps
          (Keeps.of_same rfl rfl rfl) rfl rfl
    exact hretrying.store now (hinvariant.pending message (List.mem_of_getElem? hmessage)) htimely
      horderly
  | timer event =>
    simp only [BucketPlacement.step] at hstep
    split_ifs at hstep with hcall
    obtain ⟨after, hafter, rfl⟩ := Option.map_eq_some_iff.mp hstep
    exact hinvariant.timer (Bool.not_eq_true _ ▸ hcall) hinOrder hafter

theorem invariant_of_reachable
    (hreachable : Transition.Reachable (step package options) InOrder Start state) :
    Invariant package state :=
  hreachable.invariant (fun _ hstart ↦ hstart.invariant)
    fun _ _ _ _ hinvariant hinOrder hstep ↦ hinvariant.step hinOrder hstep

/-- Once the bucket of a placed row is in the table, every lookup over the timestamp finds it. -/
theorem Invariant.mem_bucketIdsInRange (hinvariant : Invariant package state) {message : Message}
    {bucketId : BucketId} (hplaced : (message, bucketId) ∈ state.placed) {date : ℤ}
    {columns : BucketColumns}
    (hrow : state.manager.table.get? ⟨message.streamPart, date⟩ = some columns)
    (hid : columns.id = bucketId) {now fromTimestamp toTimestamp : ℤ} {bucketIds : List BucketId}
    (hfrom : fromTimestamp ≤ message.timestamp) (hto : message.timestamp ≤ toTimestamp)
    (hids : bucketIdsInRange options now state.manager.table message.streamPart
      (fromTimestamp - bucketLookbackMs) toTimestamp = .ok bucketIds) :
    bucketId ∈ bucketIds := by
  obtain ⟨placedDate, hknown, hdate, hnewest⟩ := hinvariant.placed _ hplaced
  obtain rfl : date = placedDate :=
    (BucketKey.mk.inj (hinvariant.manager.named.key_unique (Or.inr ⟨columns, hrow, hid⟩)
      hknown)).2
  rw [← hid]
  refine id_mem_bucketIdsInRange hids hrow ⟨hdate, fun other others hother hbetween ↦ ?_⟩ hfrom hto
  have hle := hnewest others.id other (Or.inr ⟨others, hother, rfl⟩) hbetween.2
  exact absurd hle (not_le.mpr hbetween.1)

instance (state : State) (message : Message) : Decidable (Timely state message) :=
  inferInstanceAs (Decidable (∀ earlier ∈ state.arrived,
    earlier.streamPart = message.streamPart →
      earlier.timestamp - bucketLookbackMs < message.timestamp))

/-- The arriving messages are timely. -/
def TimelyArrivals (state : State) : Event → Prop
  | .arrive message _ => Timely state message
  | _ => True

/-- A check of it. -/
def checkTimelyArrivals (state : State) : Event → Bool
  | .arrive message _ => decide (Timely state message)
  | _ => true

/-- A check of `Orderly` that has every bucket of the table in memory, unless it starts within the
lookback. -/
def checkOrderly (manager : BucketManager.State) (message : Message) : Bool :=
  match manager.heap message.streamPart with
  | [] => true
  | first :: rest =>
    ((rest.find? fun item ↦ item.dateCreate ≤ message.timestamp).all fun item ↦
        message.timestamp < first.dateCreate →
          ∀ other ∈ rest, other.dateCreate ≤ message.timestamp - bucketLookbackMs →
            other.dateCreate ≤ item.dateCreate) &&
      manager.table.entries.all fun row ↦ manager.buckets.has row.2.id ||
        message.timestamp - bucketLookbackMs < row.1.dateCreate

theorem orderly_of_checkOrderly {message : Message}
    (hcheck : checkOrderly manager message = true) :
    Orderly manager message.streamPart message.timestamp := by
  constructor
  · intro first rest item hheap hpast hfound other hother hearly
    rw [checkOrderly, hheap] at hcheck
    simp only [hfound, Option.all_some, Bool.and_eq_true, decide_eq_true_eq] at hcheck
    exact hcheck.1 hpast other hother hearly
  · intro first rest item hheap hitem hdate hfirst date columns hrow hhas hearly
    rw [checkOrderly, hheap] at hcheck
    simp only [Bool.and_eq_true, List.all_eq_true, Bool.or_eq_true, decide_eq_true_eq] at hcheck
    rcases hcheck.2 _ (OrderedMap.get?_eq_some_iff.mp hrow) with hmemory | hlate
    · rw [hhas] at hmemory
      cases hmemory
    · exact absurd hearly (not_le.mpr hlate)

/-- A check of the condition on a step. -/
def checkInOrder (state : State) : Event → Bool
  | .arrive message _ => decide (Timely state message) && checkOrderly state.manager message
  | .retry index _ => state.pendingStores[index]?.all fun message ↦
    decide (Timely state message) && checkOrderly state.manager message
  | .timer event => checkFree state.manager event

theorem inOrder_of_checkInOrder (state : State) (event : Event)
    (hcheck : checkInOrder state event = true) : InOrder state event := by
  cases event with
  | arrive message now =>
    obtain ⟨htimely, horderly⟩ := (Bool.and_eq_true _ _).mp hcheck
    exact ⟨of_decide_eq_true htimely, orderly_of_checkOrderly horderly⟩
  | retry index now =>
    intro message hmessage
    rw [checkInOrder, hmessage, Option.all_some] at hcheck
    obtain ⟨htimely, horderly⟩ := (Bool.and_eq_true _ _).mp hcheck
    exact ⟨fun _ ↦ of_decide_eq_true htimely, orderly_of_checkOrderly horderly⟩
  | timer event => exact datesFree_of_checkFree state.manager event hcheck

/-- A node on a table with two buckets: the old one is almost full, the newer one will be with one
more record. -/
def newNode : State where
  manager := { newManager with
    table := (OrderedMap.empty.set ⟨stream, 1000⟩ ⟨"old", 350000, 0⟩).set ⟨stream, 2000⟩
      ⟨"newer", 349999, 0⟩
    usedIds := ["old", "newer"] }
  pendingStores := []
  arrived := []
  placed := []

theorem start_newNode : Start newNode := by
  have hrow : ∀ {key columns}, newNode.manager.table.get? key = some columns →
      key = ⟨stream, 1000⟩ ∧ columns.id = "old" ∨ key = ⟨stream, 2000⟩ ∧ columns.id = "newer" := by
    intro key columns hcolumns
    have hmem : (key, columns) ∈ [((⟨stream, 1000⟩ : BucketKey), (⟨"old", 350000, 0⟩ :
        BucketColumns)), (⟨stream, 2000⟩, ⟨"newer", 349999, 0⟩)] :=
      OrderedMap.get?_eq_some_iff.mp hcolumns
    rcases List.mem_cons.mp hmem with heq | hmem
    · rw [Prod.mk.injEq] at heq
      exact Or.inl ⟨heq.1, heq.2 ▸ rfl⟩
    · have heq := List.mem_singleton.mp hmem
      rw [Prod.mk.injEq] at heq
      exact Or.inr ⟨heq.1, heq.2 ▸ rfl⟩
  refine ⟨⟨rfl, rfl, rfl, rfl, rfl, fun hkey hother hids ↦ ?_, fun hkey ↦ ?_⟩, rfl, rfl, rfl⟩
  · rcases hrow hkey with ⟨hkey, hid⟩ | ⟨hkey, hid⟩ <;>
      rcases hrow hother with ⟨hother, hotherId⟩ | ⟨hother, hotherId⟩
    · exact hkey.trans hother.symm
    · exact absurd (hid.symm.trans (hids.trans hotherId)) (by decide)
    · exact absurd (hid.symm.trans (hids.trans hotherId)) (by decide)
    · exact hkey.trans hother.symm
  · rcases hrow hkey with ⟨-, hid⟩ | ⟨-, hid⟩
    · rw [hid]
      exact List.mem_cons_self
    · rw [hid]
      exact List.mem_cons_of_mem _ List.mem_cons_self

/-- A message of the stream part with a small record. -/
def messageAt (timestamp : ℤ) : Message := ⟨stream, timestamp, 10⟩

/-- A message between the two buckets has both loaded and goes to the old one, a second one fills
the newer one, and the third one, much later, has a bucket created. -/
def threeBuckets : List Event :=
  [.arrive (messageAt 1500) 0, .timer .beginCheck, .timer .takeUp, .timer (.evaluate 0),
    .timer (.resume "newest" 0), .timer (.evaluate 0), .timer (.resume "newest" 0), .timer .takeUp,
    .retry 0 0, .arrive (messageAt 2500) 0, .arrive (messageAt 700000) 0,
    .timer .beginCheck, .timer .takeUp, .timer (.evaluate 0), .timer (.resume "newest" 0),
    .timer .takeUp, .retry 0 0]

/-- All buckets are written to the table. -/
def storeAll : List Event :=
  [.timer .beginStore, .timer (.applyUpdate 0), .timer (.applyUpdate 1), .timer (.applyUpdate 2)]

end PomboStorageNode.Storage.BucketPlacement
