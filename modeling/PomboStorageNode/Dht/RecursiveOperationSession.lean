import PomboStorageNode.Dht.LocalDataStore
import PomboStorageNode.Dht.RingContactList

/-!
# Sessions of recursive operations

`RecursiveOperationSession.ts` collects the responses to a recursive operation: the closest nodes,
the hops of the routing paths, and for each creator one data entry. Which entry of a creator it
reports is meant to depend on the time of creation. But the times are objects, which the host
language compares as texts, and all objects have the same text. So the session reports the deleted
entry that came last, or without a deleted one the entry that came first (`get?_foundData`).
-/

set_option autoImplicit false

namespace PomboStorageNode.Dht

open Library

/-! ### Comparing objects -/

/-- The primitive value of a plain object, its text. -/
def toPrimitive (_ : Timestamp) : String := "[object Object]"

/-- The operator `<` on objects. -/
def lessThan (first second : Timestamp) : Bool := toPrimitive first < toPrimitive second

/-- The operator `<=` on objects: the second one is not less than the first one. -/
def lessThanOrEqual (first second : Timestamp) : Bool := !lessThan second first

@[simp] theorem lessThan_eq_false (first second : Timestamp) : lessThan first second = false :=
  decide_eq_false (String.lt_irrefl "[object Object]")

@[simp] theorem lessThanOrEqual_eq_true (first second : Timestamp) :
    lessThanOrEqual first second = true := by
  rw [lessThanOrEqual, lessThan_eq_false]
  rfl

/-! ### The session -/

/-- `RecursiveOperation`. -/
inductive RecursiveOperation
  | findClosestNodes
  | fetchData
  | deleteData
  deriving DecidableEq

/-- `RecursiveOperationSessionOptions`. -/
structure RecursiveOperationSessionOptions where
  targetId : DhtAddress
  localNodeId : DhtAddress
  waitedRoutingPathCompletions : ℕ
  operation : RecursiveOperation

/-- A response, with the arguments of `onResponseReceived`. -/
structure RecursiveOperationResponse (Data : Type*) where
  remoteNodeId : DhtAddress
  routingPath : List PeerDescriptor
  closestConnectedNodes : List PeerDescriptor
  dataEntries : List (DataEntry Data)
  noCloserNodesFound : Bool

variable {Data Distance : Type*} [LinearOrder Distance]
  {getPeerDistance : DhtAddress → DhtAddress → Distance}

/-- `RecursiveOperationSession`; `completed` counts the events of that name. -/
structure RecursiveOperationSession (getPeerDistance : DhtAddress → DhtAddress → Distance)
    (Data : Type*) where
  options : RecursiveOperationSessionOptions
  results : SortedContactList getPeerDistance Location
  foundData : OrderedMap DhtAddress (DataEntry Data)
  allKnownHops : OrderedSet DhtAddress
  reportedHops : OrderedSet DhtAddress
  timeoutTask : Bool
  completionEventEmitted : Bool
  noCloserNodesReceivedCounter : ℕ
  noCloserNodesReceivedFrom : OrderedSet DhtAddress
  completed : ℕ

namespace RecursiveOperationSession

/-- The options of the list of the closest nodes. -/
def resultsOptions (targetId : DhtAddress) : SortedContactListOptions DhtAddress where
  referenceId := targetId
  allowToContainReferenceId := true
  maxSize := some 10
  nodeIdDistanceLimit := none
  excludedNodeIds := []
  maxSize_ne_zero := by decide

/-- The constructor. -/
def create (getPeerDistance : DhtAddress → DhtAddress → Distance) (Data : Type*)
    (options : RecursiveOperationSessionOptions) :
    RecursiveOperationSession getPeerDistance Data where
  options := options
  results := .create getPeerDistance Location (resultsOptions options.targetId)
  foundData := .empty
  allKnownHops := .empty
  reportedHops := .empty
  timeoutTask := false
  completionEventEmitted := false
  noCloserNodesReceivedCounter := 0
  noCloserNodesReceivedFrom := .empty
  completed := 0

/-- `hasNonStaleData`. -/
def hasNonStaleData (session : RecursiveOperationSession getPeerDistance Data) : Bool :=
  session.foundData.values.any fun entry ↦ !entry.stale

/-- `isCompleted`. -/
def isCompleted (session : RecursiveOperationSession getPeerDistance Data) : Bool :=
  let unreportedHops := session.allKnownHops.elements.filter fun hop ↦
    hop ∉ session.reportedHops.elements
  if 1 ≤ session.noCloserNodesReceivedCounter ∧ unreportedHops.length = 0 then
    if session.options.operation = .fetchData ∧ (session.hasNonStaleData = true ∨
        session.options.waitedRoutingPathCompletions ≤ session.noCloserNodesReceivedCounter) then
      true
    else if session.options.operation = .fetchData then false
    else true
  else false

/-- `addKnownHops`. -/
def addKnownHops (routingPath : List PeerDescriptor)
    (session : RecursiveOperationSession getPeerDistance Data) :
    RecursiveOperationSession getPeerDistance Data :=
  { session with
    allKnownHops := routingPath.foldl (fun hops descriptor ↦
      if session.options.localNodeId ≠ descriptor.nodeId then hops.add descriptor.nodeId
      else hops) session.allKnownHops }

/-- The end of `setHopAsReported`. -/
def completeOnce (session : RecursiveOperationSession getPeerDistance Data) :
    RecursiveOperationSession getPeerDistance Data :=
  if session.isCompleted ∧ session.completionEventEmitted = false then
    { session with
      timeoutTask := false
      completed := session.completed + 1
      completionEventEmitted := true }
  else session

/-- `setHopAsReported`. -/
def setHopAsReported (descriptor : PeerDescriptor)
    (session : RecursiveOperationSession getPeerDistance Data) :
    RecursiveOperationSession getPeerDistance Data :=
  completeOnce <|
    if session.options.localNodeId ≠ descriptor.nodeId then
      { session with reportedHops := session.reportedHops.add descriptor.nodeId }
    else session

/-- The entry that `processFoundData` keeps of an existing one and a received one. -/
def kept (existingEntry : Option (DataEntry Data)) (entry : DataEntry Data) : DataEntry Data :=
  match existingEntry with
  | none => entry
  | some existing =>
    if lessThan existing.createdAt entry.createdAt ||
        (lessThanOrEqual existing.createdAt entry.createdAt && entry.deleted) then entry
    else existing

/-- `processFoundData`. -/
def processFoundData (dataEntries : List (DataEntry Data))
    (session : RecursiveOperationSession getPeerDistance Data) :
    RecursiveOperationSession getPeerDistance Data :=
  { session with
    foundData := dataEntries.foldl (fun foundData entry ↦
      foundData.set entry.creator (kept (foundData.get? entry.creator) entry))
      session.foundData }

/-- `onNoCloserPeersFound`. -/
def onNoCloserPeersFound (remoteNodeId : DhtAddress)
    (session : RecursiveOperationSession getPeerDistance Data) :
    RecursiveOperationSession getPeerDistance Data :=
  let session := { session with
    noCloserNodesReceivedCounter := session.noCloserNodesReceivedCounter + 1
    noCloserNodesReceivedFrom := session.noCloserNodesReceivedFrom.add remoteNodeId }
  if session.isCompleted then
    { session with
      completed := session.completed + 1
      completionEventEmitted := true
      timeoutTask := false }
  else if !session.timeoutTask && !session.completionEventEmitted then
    { session with timeoutTask := true }
  else session

/-- The part of `onResponseReceived` before the data entries: the routing path and the nodes. -/
def processNodes (response : RecursiveOperationResponse Data)
    (session : RecursiveOperationSession getPeerDistance Data) :
    RecursiveOperationSession getPeerDistance Data :=
  let session := session.addKnownHops response.routingPath
  let session := match response.routingPath.getLast? with
    | some last => session.setHopAsReported last
    | none => session
  { session with results := session.results.addContacts response.closestConnectedNodes }

/-- `onResponseReceived`. -/
def onResponseReceived (response : RecursiveOperationResponse Data)
    (session : RecursiveOperationSession getPeerDistance Data) :
    RecursiveOperationSession getPeerDistance Data :=
  let session := (session.processNodes response).processFoundData response.dataEntries
  if response.noCloserNodesFound = true ∨
      response.remoteNodeId ∈ session.noCloserNodesReceivedFrom then
    session.onNoCloserPeersFound response.remoteNodeId
  else session

/-- The timer for more responses fires. -/
def onTimeout (session : RecursiveOperationSession getPeerDistance Data) :
    RecursiveOperationSession getPeerDistance Data :=
  if session.timeoutTask && !session.completionEventEmitted then
    { session with completed := session.completed + 1, completionEventEmitted := true }
  else session

/-- What happens to a session. -/
inductive Event (Data : Type*)
  | response (response : RecursiveOperationResponse Data)
  | timeout

/-- One event. -/
def step (session : RecursiveOperationSession getPeerDistance Data) :
    Event Data → RecursiveOperationSession getPeerDistance Data
  | .response response => session.onResponseReceived response
  | .timeout => session.onTimeout

/-- The data entries of `getResults`, by creator. -/
def reported (session : RecursiveOperationSession getPeerDistance Data) (creator : DhtAddress) :
    Option (DataEntry Data) := session.foundData.get? creator

/-- The data entries that are received in some events. -/
def received (events : List (Event Data)) : List (DataEntry Data) :=
  events.flatMap fun event ↦
    match event with
    | .response response => response.dataEntries
    | .timeout => []

theorem received_cons (event : Event Data) (events : List (Event Data)) :
    received (event :: events) = received [event] ++ received events := by
  unfold received
  rw [List.flatMap_cons, List.flatMap_singleton]

/-! ### What is reported -/

/-- The deleted entry that came last, or without a deleted one the entry that came first. -/
def lastDeletedOrFirst (entries : List (DataEntry Data)) : Option (DataEntry Data) :=
  (entries.filter (·.deleted)).getLast?.or entries.head?

/-- The comparisons do not matter: a deleted entry takes the place of the existing one, and a live
one does not. -/
theorem kept_some (existing entry : DataEntry Data) :
    kept (some existing) entry = if entry.deleted then entry else existing := by
  simp [kept]

/-- The entry that is kept of several ones, after an existing one. -/
theorem foldl_kept_some (existing : DataEntry Data) (entries : List (DataEntry Data)) :
    entries.foldl (fun existing entry ↦ some (kept existing entry)) (some existing) =
      some ((entries.filter (·.deleted)).getLast?.getD existing) := by
  induction entries generalizing existing with
  | nil => rfl
  | cons entry entries ih =>
    rw [List.foldl_cons, ih, kept_some]
    cases hdeleted : entry.deleted with
    | true =>
      rw [List.filter_cons_of_pos hdeleted, List.getLast?_cons, Option.getD_some]
      rfl
    | false =>
      rw [List.filter_cons_of_neg (by rw [hdeleted]; exact Bool.false_ne_true)]
      rfl

theorem foldl_kept_none (entries : List (DataEntry Data)) :
    entries.foldl (fun existing entry ↦ some (kept existing entry)) none =
      lastDeletedOrFirst entries := by
  cases entries with
  | nil => rfl
  | cons entry entries =>
    rw [List.foldl_cons, lastDeletedOrFirst, List.head?_cons]
    change entries.foldl _ (some entry) = _
    rw [foldl_kept_some]
    cases hdeleted : entry.deleted with
    | true =>
      rw [List.filter_cons_of_pos hdeleted, List.getLast?_cons]
      rfl
    | false =>
      rw [List.filter_cons_of_neg (by rw [hdeleted]; exact Bool.false_ne_true)]
      cases (entries.filter (·.deleted)).getLast? with
      | none => rfl
      | some last => rfl

theorem reported_processFoundData
    (session : RecursiveOperationSession getPeerDistance Data) (entries : List (DataEntry Data))
    (creator : DhtAddress) : (session.processFoundData entries).reported creator =
      (LocalDataStore.entriesOf creator entries).foldl
        (fun existing entry ↦ some (kept existing entry)) (session.reported creator) := by
  unfold reported processFoundData
  dsimp only
  generalize session.foundData = foundData
  induction entries generalizing foundData with
  | nil => rfl
  | cons entry entries ih =>
    rw [List.foldl_cons, ih]
    by_cases hcreator : entry.creator = creator
    · rw [LocalDataStore.entriesOf_cons_of_eq hcreator, List.foldl_cons, ← hcreator,
        OrderedMap.get?_set_self]
    · rw [LocalDataStore.entriesOf_cons_of_ne hcreator,
        OrderedMap.get?_set_of_ne _ _ (Ne.symm hcreator)]

theorem reported_processNodes (session : RecursiveOperationSession getPeerDistance Data)
    (response : RecursiveOperationResponse Data) (creator : DhtAddress) :
    (session.processNodes response).reported creator = session.reported creator := by
  have hhop (session : RecursiveOperationSession getPeerDistance Data)
      (descriptor : PeerDescriptor) :
      (session.setHopAsReported descriptor).foundData = session.foundData := by
    unfold setHopAsReported completeOnce
    split_ifs <;> rfl
  unfold reported processNodes
  dsimp only
  cases response.routingPath.getLast? with
  | none => rfl
  | some last => exact congrArg (·.get? creator) (hhop _ last)

theorem reported_onNoCloserPeersFound (session : RecursiveOperationSession getPeerDistance Data)
    (nodeId creator : DhtAddress) :
    (session.onNoCloserPeersFound nodeId).reported creator = session.reported creator := by
  unfold reported onNoCloserPeersFound
  dsimp only
  split_ifs <;> rfl

/-- Of what an event changes, only the data entries matter for what is reported. -/
theorem reported_step (session : RecursiveOperationSession getPeerDistance Data)
    (event : Event Data) (creator : DhtAddress) : (session.step event).reported creator =
      (LocalDataStore.entriesOf creator (received [event])).foldl
        (fun existing entry ↦ some (kept existing entry)) (session.reported creator) := by
  cases event with
  | response response =>
    have hreceived : received [.response response] = response.dataEntries :=
      List.append_nil _
    rw [hreceived, ← reported_processNodes session response, ← reported_processFoundData]
    unfold step onResponseReceived
    dsimp only
    split_ifs
    · exact reported_onNoCloserPeersFound _ _ creator
    · rfl
  | timeout =>
    change session.onTimeout.reported creator = _
    unfold onTimeout
    split_ifs
    · rfl
    · rfl

/-- A session that has received some responses, from its start. -/
def afterEvents (getPeerDistance : DhtAddress → DhtAddress → Distance)
    (options : RecursiveOperationSessionOptions) (events : List (Event Data)) :
    RecursiveOperationSession getPeerDistance Data :=
  events.foldl step (create getPeerDistance Data options)

/-- For each creator, the deleted entry that came last is reported, or the one that came first. -/
theorem reported_afterEvents (options : RecursiveOperationSessionOptions)
    (events : List (Event Data)) (creator : DhtAddress) :
    (afterEvents getPeerDistance options events).reported creator =
      lastDeletedOrFirst (LocalDataStore.entriesOf creator (received events)) := by
  rw [← foldl_kept_none]
  have hrun (session : RecursiveOperationSession getPeerDistance Data) :
      (events.foldl step session).reported creator =
        (LocalDataStore.entriesOf creator (received events)).foldl
          (fun existing entry ↦ some (kept existing entry)) (session.reported creator) := by
    induction events generalizing session with
    | nil => rfl
    | cons event events ih =>
      rw [List.foldl_cons, ih, reported_step, received_cons event events,
        LocalDataStore.entriesOf_append, List.foldl_append]
  exact hrun _

/-! ### The newest entry -/

/-- What is reported for a creator of received entries is one with the greatest time of creation,
and a deleted one if there is a deleted one with this time. -/
def ReportsNewest (session : RecursiveOperationSession getPeerDistance Data)
    (entries : List (DataEntry Data)) : Prop :=
  ∀ creator, LocalDataStore.entriesOf creator entries ≠ [] →
    ∃ entry ∈ LocalDataStore.entriesOf creator entries,
      session.reported creator = some entry ∧
      (∀ other ∈ LocalDataStore.entriesOf creator entries, other.createdAt ≤ entry.createdAt) ∧
      ((∃ other ∈ LocalDataStore.entriesOf creator entries,
        other.createdAt = entry.createdAt ∧ other.deleted = true) → entry.deleted = true)

/-- All entries are live, and different ones have different times of creation. -/
def LiveAndDistinct (entries : List (DataEntry Data)) : Prop :=
  (∀ entry ∈ entries, entry.deleted = false) ∧
    ∀ first ∈ entries, ∀ second ∈ entries, first.createdAt = second.createdAt → first = second

/-- What is reported is what a store holds after it has stored the entries, in any order. -/
def AgreesWithStore (session : RecursiveOperationSession getPeerDistance Data) (key : DhtAddress)
    (entries : List (DataEntry Data)) : Prop :=
  LiveAndDistinct entries → ∀ stored : List (DataEntry Data), stored.Perm entries →
    ∀ creator, session.reported creator =
      (LocalDataStore.empty.storeEntries stored).getEntry key creator

/-- The condition for the newest entry to be reported: for each creator, no entry was created later
than the deleted one that came last, or without a deleted one than the one that came first. -/
def NewestDecides (entries : List (DataEntry Data)) : Prop :=
  ∀ creator, ∀ entry, lastDeletedOrFirst (LocalDataStore.entriesOf creator entries) = some entry →
    ∀ other ∈ LocalDataStore.entriesOf creator entries, other.createdAt ≤ entry.createdAt

/-- The condition for the agreement with a store: for each creator, the other entries have smaller
milliseconds than the one that came first. -/
def FirstHasGreatestMillis (entries : List (DataEntry Data)) : Prop :=
  ∀ creator, ∀ entry, (LocalDataStore.entriesOf creator entries).head? = some entry →
    ∀ other ∈ LocalDataStore.entriesOf creator entries, other ≠ entry →
      other.createdAt.millis < entry.createdAt.millis

theorem lastDeletedOrFirst_mem {entries : List (DataEntry Data)} {entry : DataEntry Data}
    (hentry : lastDeletedOrFirst entries = some entry) : entry ∈ entries := by
  rcases Option.or_eq_some_iff.mp hentry with hlast | ⟨-, hfirst⟩
  · exact List.mem_of_mem_filter (List.mem_of_getLast? hlast)
  · exact List.mem_of_head? hfirst

/-- A deleted entry is passed over only for another deleted one. -/
theorem deleted_of_lastDeletedOrFirst {entries : List (DataEntry Data)}
    {entry other : DataEntry Data} (hentry : lastDeletedOrFirst entries = some entry)
    (hmem : other ∈ entries) (hdeleted : other.deleted = true) : entry.deleted = true := by
  rcases Option.or_eq_some_iff.mp hentry with hlast | ⟨hnone, -⟩
  · exact (List.mem_filter.mp (List.mem_of_getLast? hlast)).2
  · rw [List.getLast?_eq_none_iff] at hnone
    exact absurd (List.mem_filter.mpr ⟨hmem, hdeleted⟩) (hnone ▸ List.not_mem_nil)

theorem exists_lastDeletedOrFirst {entries : List (DataEntry Data)} (hne : entries ≠ []) :
    ∃ entry, lastDeletedOrFirst entries = some entry := by
  cases entries with
  | nil => exact absurd rfl hne
  | cons entry entries =>
    rw [← foldl_kept_none, List.foldl_cons]
    exact ⟨_, foldl_kept_some _ entries⟩

theorem reportsNewest_iff {session : RecursiveOperationSession getPeerDistance Data}
    {entries : List (DataEntry Data)} (hreported : ∀ creator, session.reported creator =
      lastDeletedOrFirst (LocalDataStore.entriesOf creator entries)) :
    session.ReportsNewest entries ↔ NewestDecides entries := by
  constructor
  · intro hnewest creator entry hentry
    have hne := List.ne_nil_of_mem (lastDeletedOrFirst_mem hentry)
    obtain ⟨found, -, hfound, hall, -⟩ := hnewest creator hne
    rw [hreported, hentry, Option.some.injEq] at hfound
    exact hfound ▸ hall
  · intro hdecides creator hne
    obtain ⟨entry, hentry⟩ := exists_lastDeletedOrFirst hne
    refine ⟨entry, lastDeletedOrFirst_mem hentry, (hreported creator).trans hentry,
      hdecides creator entry hentry, ?_⟩
    rintro ⟨other, hmem, -, hdeleted⟩
    exact deleted_of_lastDeletedOrFirst hentry hmem hdeleted

theorem lastDeletedOrFirst_of_live {entries : List (DataEntry Data)}
    (hlive : ∀ entry ∈ entries, entry.deleted = false) :
    lastDeletedOrFirst entries = entries.head? := by
  have hnone : entries.filter (·.deleted) = [] :=
    List.filter_eq_nil_iff.mpr fun entry hentry ↦ by
      rw [hlive entry hentry]
      exact Bool.false_ne_true
  rw [lastDeletedOrFirst, hnone]
  rfl

theorem agreesWithStore_iff {session : RecursiveOperationSession getPeerDistance Data}
    {entries : List (DataEntry Data)} (hreported : ∀ creator, session.reported creator =
      lastDeletedOrFirst (LocalDataStore.entriesOf creator entries)) {key : DhtAddress}
    (hkey : ∀ entry ∈ entries, entry.key = key) :
    session.AgreesWithStore key entries ↔
      (LiveAndDistinct entries → FirstHasGreatestMillis entries) := by
  refine imp_congr_right fun hlive ↦ ?_
  have hhead (creator : DhtAddress) : session.reported creator =
      (LocalDataStore.entriesOf creator entries).head? := by
    rw [hreported, lastDeletedOrFirst_of_live]
    exact fun entry hentry ↦ hlive.1 entry (List.mem_of_mem_filter hentry)
  have hstore {stored : List (DataEntry Data)} (hperm : stored.Perm entries)
      (creator : DhtAddress) : (LocalDataStore.empty.storeEntries stored).getEntry key creator =
        LocalDataStore.newest none (LocalDataStore.entriesOf creator stored) :=
    LocalDataStore.getEntry_storeEntries fun entry hentry ↦
      hkey entry (hperm.mem_iff.mp hentry)
  constructor
  · intro hagrees creator entry hfirst other hother hne
    -- the other entry is stored first, so that the first one has to take its place
    obtain ⟨before, after, hsplit⟩ := List.append_of_mem (List.mem_of_mem_filter hother)
    have hperm : (other :: (before ++ after)).Perm entries :=
      hsplit ▸ List.perm_middle.symm
    have hsame := hagrees _ hperm creator
    have hcreator : other.creator = creator := of_decide_eq_true (List.mem_filter.mp hother).2
    rw [hhead, hfirst, hstore hperm, LocalDataStore.entriesOf_cons_of_eq hcreator] at hsame
    obtain ⟨kept, hkept, hor, -⟩ := LocalDataStore.newest_some other
      (LocalDataStore.entriesOf creator (before ++ after))
    obtain rfl : entry = kept := Option.some.inj (hsame.trans hkept)
    rcases hor with heq | ⟨-, hlt⟩
    · exact absurd heq.symm hne
    · exact hlt
  · intro hfirst stored hperm creator
    rw [hhead, hstore hperm]
    have hfilter : (LocalDataStore.entriesOf creator stored).Perm
        (LocalDataStore.entriesOf creator entries) := hperm.filter _
    cases hentries : LocalDataStore.entriesOf creator entries with
    | nil =>
      rw [hentries, List.perm_nil] at hfilter
      rw [hfilter]
      rfl
    | cons entry rest =>
      have hentry : (LocalDataStore.entriesOf creator entries).head? = some entry := by
        rw [hentries]
        rfl
      obtain ⟨kept, hmem, hkept, hall⟩ := LocalDataStore.exists_newest
        (fun hnil ↦ List.cons_ne_nil entry rest
          (hentries ▸ List.nil_perm.mp (hnil ▸ hfilter)))
      have hle : entry.createdAt.millis ≤ kept.createdAt.millis :=
        hall entry (hfilter.mem_iff.mpr (List.mem_of_head? hentry))
      have hsame : kept = entry := by
        by_contra hne
        exact absurd (hfirst creator entry hentry kept (hfilter.mem_iff.mp hmem) hne) hle.not_gt
      rw [hkept, hsame]
      rfl

/-- What a session reports is the newest entry, and agrees with a store, exactly if no entry was
created later than the deleted one that came last, or without a deleted one than the one that came
first, and for live entries the first one has the greatest milliseconds. -/
theorem newestWins_iff_of_received (options : RecursiveOperationSessionOptions)
    {events : List (Event Data)} {key : DhtAddress}
    (hkey : ∀ entry ∈ received events, entry.key = key) :
    ((afterEvents getPeerDistance options events).ReportsNewest (received events) ∧
      (afterEvents getPeerDistance options events).AgreesWithStore key (received events)) ↔
    NewestDecides (received events) ∧
      (LiveAndDistinct (received events) → FirstHasGreatestMillis (received events)) := by
  have hreported := @reported_afterEvents _ _ _ getPeerDistance options events
  exact and_congr (reportsNewest_iff hreported) (agreesWithStore_iff hreported hkey)

/-! ### Two entries of one creator -/

/-- An address of equal bytes. -/
def equalBytes (byte : UInt8) : DhtAddress := ⟨List.replicate 20 byte, List.length_replicate⟩

/-- The options of a session that fetches data. -/
def fetchOptions : RecursiveOperationSessionOptions := ⟨equalBytes 0, equalBytes 1, 1, .fetchData⟩

/-- An entry that was created at a given second. -/
def entryAt (second : ℕ) (hsafe : second < 2 ^ 53) (deleted : Bool) : DataEntry Unit where
  key := equalBytes 0
  data := ()
  creator := equalBytes 2
  createdAt := ⟨second, 0, hsafe, by decide⟩
  stale := false
  deleted := deleted

/-- The response of a node with one entry. -/
def answer (byte : UInt8) (entry : DataEntry Unit) : Event Unit :=
  .response ⟨equalBytes byte, [], [], [entry], true⟩

/-- The live entry of the second 1. -/
def older : DataEntry Unit := entryAt 1 (by decide) false

/-- The live entry of the second 2. -/
def newer : DataEntry Unit := entryAt 2 (by decide) false

theorem millis_older_lt_newer : older.createdAt.millis < newer.createdAt.millis := by
  decide +kernel

/-- The newer one of two live entries is received first, and reported. -/
theorem newer_reported_when_first :
    (afterEvents kBucketDistance fetchOptions [answer 3 newer, answer 4 older]).reported
      (equalBytes 2) = some newer ∧
    (afterEvents kBucketDistance fetchOptions [answer 3 newer, answer 4 older]).ReportsNewest
      [newer, older] ∧
    (afterEvents kBucketDistance fetchOptions [answer 3 newer, answer 4 older]).AgreesWithStore
      (equalBytes 0) [newer, older] := by
  have hkey : ∀ entry ∈ received [answer 3 newer, answer 4 older], entry.key = equalBytes 0 := by
    decide
  have hle : older.createdAt ≤ newer.createdAt := by decide
  refine ⟨by decide +kernel, (newestWins_iff_of_received fetchOptions hkey).mpr ⟨?_, ?_⟩⟩
  · intro creator entry hentry other hother
    by_cases hcreator : equalBytes 2 = creator
    · subst hcreator
      obtain rfl : newer = entry := Option.some.inj hentry
      have hmem : other ∈ [newer, older] := List.mem_of_mem_filter hother
      rcases List.mem_pair.mp hmem with rfl | rfl
      · exact le_rfl
      · exact hle
    · have hmem : other ∈ [newer, older] := List.mem_of_mem_filter hother
      have hother := of_decide_eq_true (List.mem_filter.mp hother).2
      rcases List.mem_pair.mp hmem with rfl | rfl
      · exact absurd hother hcreator
      · exact absurd hother hcreator
  · intro _ creator entry hentry other hother hne
    have hmem : other ∈ [newer, older] := List.mem_of_mem_filter hother
    have hcreator := of_decide_eq_true (List.mem_filter.mp hother).2
    have hsecond : creator = equalBytes 2 := by
      rcases List.mem_pair.mp hmem with rfl | rfl
      · exact hcreator.symm
      · exact hcreator.symm
    subst hsecond
    obtain rfl : newer = entry := Option.some.inj hentry
    rcases List.mem_pair.mp hmem with rfl | rfl
    · exact absurd rfl hne
    · exact millis_older_lt_newer

/-- The older one of two live entries is received first: it is reported, and a store holds the newer
one. And a deleted entry that is received after a newer live one is reported. -/
theorem older_reported_when_first :
    ((afterEvents kBucketDistance fetchOptions [answer 3 older, answer 4 newer]).reported
        (equalBytes 2) = some older ∧
      (LocalDataStore.empty.storeEntries [older, newer]).getEntry (equalBytes 0) (equalBytes 2) =
        some newer ∧
      ¬(afterEvents kBucketDistance fetchOptions [answer 3 older, answer 4 newer]).ReportsNewest
        [older, newer] ∧
      ¬(afterEvents kBucketDistance fetchOptions [answer 3 older, answer 4 newer]).AgreesWithStore
        (equalBytes 0) [older, newer]) ∧
    (afterEvents kBucketDistance fetchOptions [answer 3 newer,
      answer 4 (entryAt 1 (by decide) true)]).reported (equalBytes 2) =
        some (entryAt 1 (by decide) true) := by
  have hreported : (afterEvents kBucketDistance fetchOptions
      [answer 3 older, answer 4 newer]).reported (equalBytes 2) = some older := by
    decide +kernel
  have hstore : (LocalDataStore.empty.storeEntries [older, newer]).getEntry (equalBytes 0)
      (equalBytes 2) = some newer := by
    decide +kernel
  refine ⟨⟨hreported, hstore, ?_, ?_⟩, by decide +kernel⟩
  · intro hnewest
    obtain ⟨found, -, hfound, hall, -⟩ := hnewest (equalBytes 2) (List.cons_ne_nil _ _)
    obtain rfl : older = found := Option.some.inj (hreported.symm.trans hfound)
    exact absurd (hall newer (by decide)) (by decide)
  · intro hagrees
    have hsame := hagrees ⟨by decide, by decide⟩ _ (List.Perm.refl _) (equalBytes 2)
    rw [hreported, hstore] at hsame
    exact absurd hsame (by decide)

end RecursiveOperationSession

end PomboStorageNode.Dht
