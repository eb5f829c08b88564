import PomboStorageNode.Storage.BucketDates

/-!
# The search in the heap of a stream part

For a message that is older than the latest bucket, `findBucketId` goes through the array of the
heap and takes the first bucket that starts by the timestamp. The array of a heap is not sorted: of
the buckets behind its first element nothing is known but that they are not newer than that one.
`findsNewest_iff` says when the search is right for a timestamp, whatever buckets were inserted and
removed before, and `forall_findsNewest_iff` when it is right for all of them: when the rest of the
array happens to be sorted, newest first.
-/

set_option autoImplicit false

namespace PomboStorageNode.Storage.BucketSearch

open Library Tables BucketManager BucketDates

variable {package : HeapPackage} {state : State} {streamPart : StreamPart} {timestamp : ℤ}

/-! ### Inserting and removing buckets -/

/-- A bucket comes into memory or leaves it. -/
inductive Change
  | insert (bucket : Bucket)
  | remove (bucketId : BucketId)

/-- The manager after a change. A bucket is only inserted when it is not in memory
(`checkFoundBuckets`), and only removed when it is. -/
def change (package : HeapPackage) (state : State) : Change → Option State
  | .insert bucket =>
    if state.buckets.has bucket.id then none else some (pushBucket package state bucket)
  | .remove bucketId => (state.buckets.get? bucketId).map fun bucket ↦
    removeBucket package state bucketId bucket.streamPart

/-- Nothing is in memory. -/
def Start (state : State) : Prop :=
  state.buckets = OrderedMap.empty ∧ state.streamParts = OrderedMap.empty

/-- The states after any insertions and removals. -/
abbrev Reachable (package : HeapPackage) : State → Prop :=
  Transition.Reachable (change package) (fun _ _ ↦ True) Start

theorem heapCoherent_of_reachable (hreachable : Reachable package state) :
    HeapCoherent package state := by
  refine @Transition.Reachable.invariant _ _ _ _ _ (HeapCoherent package) ?_ ?_ _ hreachable
  · exact fun start hstart ↦ HeapCoherent.of_empty hstart.1 hstart.2
  · intro before event after _ hcoherent _ hchange
    cases event with
    | insert bucket =>
      rw [change] at hchange
      split_ifs at hchange with hhas
      obtain rfl := Option.some.inj hchange
      exact hcoherent.pushBucket (by simpa [OrderedMap.has] using hhas)
    | remove bucketId =>
      obtain ⟨bucket, hbucket, rfl⟩ := Option.map_eq_some_iff.mp hchange
      exact hcoherent.removeBucket hbucket

/-! ### What the search should find -/

/-- The search returns the newest of the buckets in memory that start by the timestamp, or nothing
when there is none. -/
def FindsNewest (state : State) (streamPart : StreamPart) (timestamp : ℤ) : Prop :=
  match findBucketId state streamPart timestamp with
  | some bucketId => ∃ date, InMemory state bucketId ⟨streamPart, date⟩ ∧ date ≤ timestamp ∧
    ∀ other otherDate, InMemory state other ⟨streamPart, otherDate⟩ → otherDate ≤ timestamp →
      otherDate ≤ date
  | none => ∀ other otherDate, InMemory state other ⟨streamPart, otherDate⟩ → timestamp < otherDate

/-- Among the buckets of an array that start by the timestamp, the first is a newest one. -/
def NewestFirst (items : List HeapItem) (timestamp : ℤ) : Prop :=
  ∀ before item after, items = before ++ item :: after → item.dateCreate ≤ timestamp →
    (∀ earlier ∈ before, timestamp < earlier.dateCreate) →
      ∀ later ∈ after, later.dateCreate ≤ timestamp → later.dateCreate ≤ item.dateCreate

/-! ### When the search is right -/

theorem findBucketId_of_lt {latest : Bucket}
    (hlatest : getLatestInMemoryBucket state streamPart = some latest)
    (hearly : timestamp < latest.dateCreate) :
    findBucketId state streamPart timestamp =
      firstAtOrBefore ((state.heap streamPart).drop 1) timestamp := by
  simp only [findBucketId, hlatest]
  rw [if_neg fun hroom ↦ absurd hroom.2 (not_le.mpr hearly), if_pos hearly]

/-- The buckets in memory that start by a timestamp before the latest bucket are in the array
behind it.
Assumes: the buckets in memory and the heaps say the same. -/
theorem inMemory_iff_mem_drop (hcoherent : HeapCoherent package state) {latest : Bucket}
    (hlatest : getLatestInMemoryBucket state streamPart = some latest)
    (hearly : timestamp < latest.dateCreate) {id : BucketId} {date : ℤ} (hdate : date ≤ timestamp) :
    InMemory state id ⟨streamPart, date⟩ ↔ ⟨date, id⟩ ∈ (state.heap streamPart).drop 1 := by
  obtain ⟨-, -, rest, hheap⟩ := hcoherent.latest_eq_some hlatest
  rw [inMemory_iff_mem_heap hcoherent, hheap, List.drop_one, List.tail_cons, List.mem_cons]
  refine or_iff_right fun heq ↦ ?_
  have hsame : date = latest.dateCreate := (HeapItem.mk.inj heq).1
  omega

/-- The first match in an array, taken apart. -/
theorem firstAtOrBefore_eq_some {items : List HeapItem} {bucketId : BucketId} :
    firstAtOrBefore items timestamp = some bucketId ↔ ∃ before item after,
      items = before ++ item :: after ∧ item.id = bucketId ∧ item.dateCreate ≤ timestamp ∧
        ∀ earlier ∈ before, timestamp < earlier.dateCreate := by
  simp only [firstAtOrBefore, Option.map_eq_some_iff, List.find?_eq_some_iff_append,
    decide_eq_true_eq, Bool.not_eq_true', decide_eq_false_iff_not, not_le]
  constructor
  · rintro ⟨item, ⟨hdate, before, after, hitems, hbefore⟩, hid⟩
    exact ⟨before, item, after, hitems, hid, hdate, hbefore⟩
  · rintro ⟨before, item, after, hitems, hid, hdate, hbefore⟩
    exact ⟨item, ⟨hdate, before, after, hitems, hbefore⟩, hid⟩

/-- After any insertions and removals the search for a timestamp before the latest bucket is right
if and only if the array behind that bucket has the newest of those that start by it first.
Assumes: the latest bucket starts after the timestamp. -/
theorem findsNewest_iff (hreachable : Reachable package state) {latest : Bucket}
    (hlatest : getLatestInMemoryBucket state streamPart = some latest)
    (hearly : timestamp < latest.dateCreate) :
    FindsNewest state streamPart timestamp ↔
      NewestFirst ((state.heap streamPart).drop 1) timestamp := by
  have hcoherent := heapCoherent_of_reachable hreachable
  have hmem : ∀ {id date}, date ≤ timestamp → (InMemory state id ⟨streamPart, date⟩ ↔
      ⟨date, id⟩ ∈ (state.heap streamPart).drop 1) :=
    inMemory_iff_mem_drop hcoherent hlatest hearly
  rw [FindsNewest, findBucketId_of_lt hlatest hearly]
  cases hfind : firstAtOrBefore ((state.heap streamPart).drop 1) timestamp with
  | none =>
    have hlate : ∀ item ∈ (state.heap streamPart).drop 1, timestamp < item.dateCreate := by
      simpa [firstAtOrBefore] using hfind
    refine iff_of_true (fun other otherDate hother ↦ ?_) fun before item after hitems hdate ↦ ?_
    · by_contra hdate
      exact hdate (hlate _ ((hmem (not_lt.mp hdate)).mp hother))
    · exact absurd hdate (hlate item (hitems ▸ by simp)).not_ge
  | some bucketId =>
    obtain ⟨before, item, after, hitems, rfl, hdate, hbefore⟩ := firstAtOrBefore_eq_some.mp hfind
    have hitem : InMemory state item.id ⟨streamPart, item.dateCreate⟩ :=
      (hmem hdate).mpr (hitems ▸ by simp)
    dsimp only
    constructor
    · rintro ⟨date, hmemory, -, hnewest⟩ first found rest hsplit hfoundDate hfirst later hlater
        hlaterDate
      -- there is one first match
      have hfound := firstAtOrBefore_eq_some.mpr ⟨first, found, rest, hsplit, rfl, hfoundDate,
        hfirst⟩
      have hid : item.id = found.id := Option.some.inj (hfind.symm.trans hfound)
      have hfoundMemory : InMemory state item.id ⟨streamPart, found.dateCreate⟩ :=
        hid ▸ (hmem hfoundDate).mpr (hsplit ▸ by simp)
      obtain rfl : date = found.dateCreate := hmemory.date_eq hfoundMemory
      exact hnewest later.id later.dateCreate ((hmem hlaterDate).mpr (hsplit ▸ by simp [hlater]))
        hlaterDate
    · intro hnewestFirst
      refine ⟨item.dateCreate, hitem, hdate, fun other otherDate hother hotherDate ↦ ?_⟩
      have hin := (hmem hotherDate).mp hother
      rw [hitems, List.mem_append, List.mem_cons] at hin
      rcases hin with hin | rfl | hin
      · exact absurd hotherDate (hbefore _ hin).not_ge
      · exact le_rfl
      · exact hnewestFirst before item after hitems hdate hbefore _ hin hotherDate

/-! ### All timestamps -/

/-- An array with different dates that has the newest first for every timestamp before a bound is
sorted. -/
theorem pairwise_of_newestFirst {items : List HeapItem} {bound : ℤ}
    (hdates : (items.map HeapItem.dateCreate).Nodup)
    (hbound : ∀ item ∈ items, item.dateCreate < bound)
    (hnewest : ∀ timestamp < bound, NewestFirst items timestamp) :
    items.Pairwise fun first second ↦ second.dateCreate ≤ first.dateCreate := by
  induction items with
  | nil => exact List.Pairwise.nil
  | cons first rest ih =>
    rw [List.map_cons, List.nodup_cons] at hdates
    have hfirst : ∀ later ∈ rest, later.dateCreate ≤ first.dateCreate := by
      intro later hlater
      by_contra holder
      have hle := hnewest later.dateCreate (hbound later (List.mem_cons_of_mem _ hlater)) [] first
        rest rfl (not_le.mp holder).le (by rintro _ ⟨⟩) later hlater le_rfl
      exact holder hle
    refine List.pairwise_cons.mpr ⟨hfirst, ih hdates.2
      (fun item hitem ↦ hbound item (List.mem_cons_of_mem _ hitem)) ?_⟩
    intro timestamp htimestamp before item after hitems hdate hbefore later hlater hlaterDate
    by_contra holder
    -- at the date of the later bucket the first one does not match
    have hmem : later ∈ rest := hitems ▸ by simp [hlater]
    have hlt : later.dateCreate < first.dateCreate :=
      lt_of_le_of_ne (hfirst later hmem) fun heq ↦ hdates.1 (heq ▸ List.mem_map_of_mem hmem)
    have hle := hnewest later.dateCreate (by omega) (first :: before) item after
      (by rw [hitems, List.cons_append]) (not_le.mp holder).le (fun earlier hearlier ↦ ?_) later
      hlater le_rfl
    · exact holder hle
    · rcases List.mem_cons.mp hearlier with rfl | hearlier
      · exact hlt
      · exact hlaterDate.trans_lt (hbefore earlier hearlier)

/-- A sorted array has the newest first. -/
theorem newestFirst_of_pairwise {items : List HeapItem}
    (hsorted : items.Pairwise fun first second ↦ second.dateCreate ≤ first.dateCreate)
    (timestamp : ℤ) : NewestFirst items timestamp := by
  rintro before item after rfl - - later hlater -
  exact List.rel_of_pairwise_cons (List.pairwise_append.mp hsorted).2.1 hlater

/-- The search is right for all timestamps before the latest bucket if and only if the array behind
that bucket is sorted.
Assumes: the buckets have different dates. -/
theorem forall_findsNewest_iff (hreachable : Reachable package state) {latest : Bucket}
    (hlatest : getLatestInMemoryBucket state streamPart = some latest)
    (hdates : ((state.heap streamPart).map HeapItem.dateCreate).Nodup) :
    (∀ timestamp < latest.dateCreate, FindsNewest state streamPart timestamp) ↔
      ((state.heap streamPart).drop 1).Pairwise
        fun first second ↦ second.dateCreate ≤ first.dateCreate := by
  have hcoherent := heapCoherent_of_reachable hreachable
  constructor
  · intro hall
    have hbound : ∀ item ∈ (state.heap streamPart).drop 1, item.dateCreate < latest.dateCreate := by
      intro item hitem
      have hle := hcoherent.le_latest hlatest (List.mem_of_mem_drop hitem)
      obtain ⟨-, -, rest, hheap⟩ := hcoherent.latest_eq_some hlatest
      rw [hheap, List.map_cons, List.nodup_cons] at hdates
      rw [hheap, List.drop_one, List.tail_cons] at hitem
      refine lt_of_le_of_ne hle fun heq ↦ hdates.1 ?_
      exact List.mem_map.mpr ⟨item, hitem, heq⟩
    refine pairwise_of_newestFirst ?_ hbound fun timestamp hearly ↦
      (findsNewest_iff hreachable hlatest hearly).mp (hall timestamp hearly)
    rw [List.map_drop]
    exact hdates.sublist (List.drop_sublist _ _)
  · exact fun hsorted timestamp hearly ↦ (findsNewest_iff hreachable hlatest hearly).mpr
      (newestFirst_of_pairwise hsorted timestamp)

/-! ### Three buckets -/

/-- A bucket comes into memory. -/
def insertAt (id : BucketId) (dateCreate : ℤ) : Change :=
  .insert (Bucket.create defaultBucketManagerOptions 0 id stream 0 0 dateCreate)

/-- Three buckets that are inserted from the newest to the oldest stand so in the array. -/
theorem findsNewest_of_descending : ∃ state,
    Transition.run (change rootedHeap) emptyManager
        [insertAt "newest" 3000, insertAt "newer" 2000, insertAt "old" 1000] = some state ∧
      FindsNewest state stream 2500 := by
  have hrun : ((Transition.run (change rootedHeap) emptyManager [insertAt "newest" 3000,
      insertAt "newer" 2000, insertAt "old" 1000]).map fun state ↦
        ((getLatestInMemoryBucket state stream).map Bucket.dateCreate, state.heap stream)) =
      some (some 3000, [⟨3000, "newest"⟩, ⟨2000, "newer"⟩, ⟨1000, "old"⟩]) := by decide +kernel
  obtain ⟨state, hstate, hview⟩ := Option.map_eq_some_iff.mp hrun
  obtain ⟨hdate, hheap⟩ := Prod.mk.inj hview
  obtain ⟨latest, hlatest, hdate⟩ := Option.map_eq_some_iff.mp hdate
  have hreachable : Reachable rootedHeap state :=
    .of_run _ (fun _ _ _ ↦ trivial) (.start ⟨rfl, rfl⟩) hstate
  refine ⟨state, hstate, (findsNewest_iff hreachable hlatest (hdate ▸ by decide)).mpr ?_⟩
  rw [hheap]
  exact newestFirst_of_pairwise (by decide) 2500

/-- When the newer of the two others is inserted last, it stands behind the older one, and the
search for a timestamp after both returns the older one. -/
theorem finds_older : ∃ state,
    Transition.run (change rootedHeap) emptyManager
        [insertAt "newest" 3000, insertAt "old" 1000, insertAt "newer" 2000] = some state ∧
      findBucketId state stream 2500 = some "old" ∧ InMemory state "newer" ⟨stream, 2000⟩ ∧
        ¬ FindsNewest state stream 2500 := by
  have hrun : (Transition.run (change rootedHeap) emptyManager [insertAt "newest" 3000,
      insertAt "old" 1000, insertAt "newer" 2000]).any (fun state ↦
        findBucketId state stream 2500 = some "old" ∧
          ((state.buckets.get? "newer").map fun bucket ↦ (bucket.streamPart, bucket.dateCreate)) =
            some (stream, 2000) ∧
          ((state.buckets.get? "old").map Bucket.dateCreate) = some 1000) = true := by
    decide +kernel
  obtain ⟨state, hstate, hview⟩ := (Option.any_eq_true _ _).mp hrun
  obtain ⟨hfind, hnewer, hold⟩ := of_decide_eq_true hview
  obtain ⟨bucket, hbucket, hkey⟩ := Option.map_eq_some_iff.mp hnewer
  obtain ⟨hpart, hdate⟩ := Prod.mk.inj hkey
  have hmemory : InMemory state "newer" ⟨stream, 2000⟩ := ⟨bucket, hbucket, by rw [hpart, hdate]⟩
  refine ⟨state, hstate, hfind, hmemory, fun hfinds ↦ ?_⟩
  rw [FindsNewest, hfind] at hfinds
  obtain ⟨date, ⟨other, hother, hotherKey⟩, -, hnewest⟩ := hfinds
  rw [hother, Option.map_some, Option.some.injEq] at hold
  have hdateOld : date = 1000 := (BucketKey.mk.inj hotherKey).2.trans hold
  exact absurd (hnewest "newer" 2000 hmemory (by decide)) (by rw [hdateOld]; decide)

end PomboStorageNode.Storage.BucketSearch
