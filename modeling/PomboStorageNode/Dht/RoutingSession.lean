import PomboStorageNode.Dht.RoutingTablesCache

/-!
# Routing sessions

`RoutingSession.ts` routes one message: it sends requests to routable peers, `parallelism` of them
at a time, and emits an outcome. A request that fails is followed by others; after `maxFailedHops`
failures, or when nobody is left to ask, the session has failed.

A request that succeeds stays in `ongoingRequests`. So a success with other peers to ask is followed
by nothing when no request is unanswered, and a failure without other peers to ask ends the session
although a request is unanswered. `GoesOn` is the condition under which a reply does neither.
-/

set_option autoImplicit false

namespace PomboStorageNode.Dht.RoutingSession

open Library RoutingTablesCache

variable {Remote Distance : Type*} [LinearOrder Distance]
  {getPeerDistance : DhtAddress → DhtAddress → Distance}

/-- `MAX_FAILED_HOPS`. -/
def maxFailedHops : ℕ := 2

/-- `RoutingMode`. -/
inductive RoutingMode
  | route
  | forward
  | recursive
  deriving DecidableEq

/-- `RoutingSessionOptions`, with what the routed message says of its target, its source and the
previous peer. -/
structure RoutingSessionOptions where
  targetId : DhtAddress
  previousId : Option DhtAddress
  localNodeId : DhtAddress
  sourceNodeId : DhtAddress
  parallelism : ℕ
  mode : RoutingMode
  excludedNodeIds : List DhtAddress
  parallelism_pos : 0 < parallelism

/-- The outcomes among `RoutingSessionEvents`. -/
inductive Outcome
  | routingSucceeded
  | partialSuccess
  | routingFailed
  deriving DecidableEq

/-- An outcome, and what held when it was emitted: the number of failed requests, the requests that
were unanswered and the peers that were routable. -/
structure Emission where
  outcome : Outcome
  failedRequests : ℕ
  unanswered : List DhtAddress
  routable : List DhtAddress
  deriving DecidableEq

/-- A session. The requests, the unanswered ones among them, the number of failed ones and the
emissions are its history. -/
structure Session where
  ongoingRequests : OrderedSet DhtAddress
  contactedPeers : OrderedSet DhtAddress
  failedHopCounter : ℕ
  successfulHopCounter : ℕ
  stopped : Bool
  parallelRootNodeIds : List DhtAddress
  requested : List DhtAddress
  unanswered : List DhtAddress
  failedRequests : ℕ
  emitted : List Emission

/-- What happens in a session: a reply, with the connections and the cached routing tables that the
node has by then, or its end. -/
inductive Event (getPeerDistance : DhtAddress → DhtAddress → Distance) (Remote : Type*)
  | succeeded (nodeId : DhtAddress) (node : Node getPeerDistance Remote)
  | failed (nodeId : DhtAddress) (node : Node getPeerDistance Remote)
  | stop

namespace Session

/-- A new session. -/
def create (parallelRootNodeIds : List DhtAddress) : Session :=
  ⟨.empty, .empty, 0, 0, false, parallelRootNodeIds, [], [], 0, []⟩

/-- The ids of the contacts that `updateAndGetRoutablePeers` returns. -/
def updateAndGetRoutablePeers (options : RoutingSessionOptions) (session : Session)
    (node : Node getPeerDistance Remote) : List DhtAddress :=
  (node.updateAndGetRoutablePeers options.targetId options.previousId
    session.contactedPeers.elements options.excludedNodeIds).1.map Contact.nodeId

/-- Whether a session keeps the list of parallel roots. -/
def isRecursiveSource (options : RoutingSessionOptions) : Bool :=
  options.mode = .recursive ∧ options.localNodeId = options.sourceNodeId

/-- `addParallelRootIfSource`. -/
def addParallelRootIfSource (options : RoutingSessionOptions) (nodeId : DhtAddress)
    (session : Session) : Session :=
  if isRecursiveSource options then
    { session with parallelRootNodeIds := session.parallelRootNodeIds ++ [nodeId] }
  else session

/-- `deleteParallelRootIfSource`. -/
def deleteParallelRootIfSource (options : RoutingSessionOptions) (nodeId : DhtAddress)
    (session : Session) : Session :=
  if isRecursiveSource options then
    { session with parallelRootNodeIds := session.parallelRootNodeIds.filter (· ≠ nodeId) }
  else session

/-- `emit` of an outcome. -/
def emit (options : RoutingSessionOptions) (node : Node getPeerDistance Remote)
    (outcome : Outcome) (session : Session) : Session :=
  { session with emitted := session.emitted ++ [⟨outcome, session.failedRequests,
      session.unanswered, session.updateAndGetRoutablePeers options node⟩] }

/-- `emitFailure`. -/
def emitFailure (options : RoutingSessionOptions) (node : Node getPeerDistance Remote)
    (session : Session) : Session :=
  session.emit options node
    (if 1 ≤ session.successfulHopCounter then .partialSuccess else .routingFailed)

/-- One request of `sendMoreRequests`. -/
def sendRequest (options : RoutingSessionOptions) (nodeId : DhtAddress) (session : Session) :
    Session :=
  { addParallelRootIfSource options nodeId session with
    contactedPeers := session.contactedPeers.add nodeId
    ongoingRequests := session.ongoingRequests.add nodeId
    requested := session.requested ++ [nodeId]
    unanswered := session.unanswered ++ [nodeId] }

/-- The loop of `sendMoreRequests`. -/
def sendRequests (options : RoutingSessionOptions) : List DhtAddress → Session → Session
  | [], session => session
  | nextPeer :: uncontacted, session =>
    if session.ongoingRequests.elements.length < options.parallelism then
      sendRequests options uncontacted (session.sendRequest options nextPeer)
    else session

/-- `sendMoreRequests`. -/
def sendMoreRequests (options : RoutingSessionOptions) (node : Node getPeerDistance Remote)
    (uncontacted : List DhtAddress) (session : Session) : Session :=
  if session.stopped then session
  else if uncontacted.length = 0 then session.emitFailure options node
  else session.sendRequests options uncontacted

/-- The start of `onRequestFailed`. -/
def countFailure (options : RoutingSessionOptions) (nodeId : DhtAddress) (session : Session) :
    Session :=
  { deleteParallelRootIfSource options nodeId session with
    ongoingRequests := session.ongoingRequests.delete nodeId
    failedHopCounter := session.failedHopCounter + 1 }

/-- `onRequestFailed`. -/
def onRequestFailed (options : RoutingSessionOptions) (nodeId : DhtAddress)
    (node : Node getPeerDistance Remote) (session : Session) : Session :=
  if session.stopped then session
  else
    let session := countFailure options nodeId session
    if maxFailedHops ≤ session.failedHopCounter then session.emitFailure options node
    else
      let contacts := session.updateAndGetRoutablePeers options node
      if contacts.length = 0 ∧ session.ongoingRequests.elements.length = 0 then
        session.emitFailure options node
      else session.sendMoreRequests options node contacts

/-- `onRequestSucceeded`. -/
def onRequestSucceeded (options : RoutingSessionOptions) (node : Node getPeerDistance Remote)
    (session : Session) : Session :=
  if session.stopped then session
  else
    let session := { session with successfulHopCounter := session.successfulHopCounter + 1 }
    if options.parallelism ≤ session.successfulHopCounter then
      session.emit options node .routingSucceeded
    else
      let contacts := session.updateAndGetRoutablePeers options node
      if contacts.length = 0 then session.emit options node .routingSucceeded
      else if 0 < contacts.length ∧ session.ongoingRequests.elements.length = 0 then
        session.sendMoreRequests options node contacts
      else session

/-- A request is answered. -/
def answered (nodeId : DhtAddress) (session : Session) : Session :=
  { session with unanswered := session.unanswered.filter (· ≠ nodeId) }

/-- One event. A request is answered once. -/
def step (options : RoutingSessionOptions) (session : Session) :
    Event getPeerDistance Remote → Option Session
  | .succeeded nodeId node =>
    if nodeId ∈ session.unanswered then
      some ((session.answered nodeId).onRequestSucceeded options node)
    else none
  | .failed nodeId node =>
    if nodeId ∈ session.unanswered then
      some (onRequestFailed options nodeId node
        { session.answered nodeId with failedRequests := session.failedRequests + 1 })
    else none
  | .stop => some { session with stopped := true }

/-- `doRouteMessage`: the session starts when there is a routable peer. -/
def start (options : RoutingSessionOptions) (parallelRootNodeIds : List DhtAddress)
    (node : Node getPeerDistance Remote) : Option Session :=
  let session := create parallelRootNodeIds
  let contacts := session.updateAndGetRoutablePeers options node
  if 0 < contacts.length then some (session.sendMoreRequests options node contacts) else none

/-! ### Routable peers -/

/-- The routable peers are different, and neither contacted nor excluded. -/
theorem updateAndGetRoutablePeers_spec (options : RoutingSessionOptions) (session : Session)
    (node : Node getPeerDistance Remote) :
    (session.updateAndGetRoutablePeers options node).Nodup ∧
    ∀ nodeId ∈ session.updateAndGetRoutablePeers options node,
      nodeId ∉ session.contactedPeers ∧ nodeId ∉ options.excludedNodeIds := by
  constructor
  · exact (node.routingTable options.targetId options.previousId).1.valid.nodup.sublist
      (List.filter_sublist.map _)
  · intro nodeId hmem
    obtain ⟨contact, hcontact, rfl⟩ := List.mem_map.mp hmem
    have hkept := (List.mem_filter.mp hcontact).2
    rw [decide_eq_true_eq] at hkept
    exact hkept

/-- The routable peers depend on the contacted ones. -/
theorem updateAndGetRoutablePeers_congr {options : RoutingSessionOptions}
    {first second : Session} (hsame : first.contactedPeers = second.contactedPeers)
    (node : Node getPeerDistance Remote) :
    first.updateAndGetRoutablePeers options node =
      second.updateAndGetRoutablePeers options node := by
  rw [updateAndGetRoutablePeers, updateAndGetRoutablePeers, hsame]

/-! ### Requests -/

/-- The requests of a session: different ones, to contacted peers that are not excluded; the
unanswered ones are ongoing, and there is room for the ongoing ones. -/
structure Requests (options : RoutingSessionOptions) (session : Session) : Prop where
  nodup : session.requested.Nodup
  not_excluded : ∀ nodeId ∈ session.requested, nodeId ∉ options.excludedNodeIds
  contacted : ∀ nodeId ∈ session.requested, nodeId ∈ session.contactedPeers
  unanswered_nodup : session.unanswered.Nodup
  unanswered_requested : ∀ nodeId ∈ session.unanswered, nodeId ∈ session.requested
  unanswered_ongoing : ∀ nodeId ∈ session.unanswered, nodeId ∈ session.ongoingRequests
  ongoing_le : session.ongoingRequests.elements.length ≤ options.parallelism

variable {options : RoutingSessionOptions} {session : Session}

theorem Requests.length_unanswered_le (hsession : Requests options session) :
    session.unanswered.length ≤ options.parallelism :=
  (List.subperm_of_subset hsession.unanswered_nodup hsession.unanswered_ongoing).length_le.trans
    hsession.ongoing_le

/-- Neither an answer nor the end of a request is a new one. -/
theorem Requests.answered (hsession : Requests options session) (nodeId : DhtAddress) :
    Requests options (session.answered nodeId) :=
  ⟨hsession.nodup, hsession.not_excluded, hsession.contacted,
    hsession.unanswered_nodup.filter _,
    fun other hmem ↦ hsession.unanswered_requested other (List.mem_of_mem_filter hmem),
    fun other hmem ↦ hsession.unanswered_ongoing other (List.mem_of_mem_filter hmem),
    hsession.ongoing_le⟩

/-- What `addParallelRootIfSource` leaves alone. -/
theorem addParallelRootIfSource_fields (options : RoutingSessionOptions) (nodeId : DhtAddress)
    (session : Session) :
    (addParallelRootIfSource options nodeId session).failedHopCounter = session.failedHopCounter ∧
    (addParallelRootIfSource options nodeId session).successfulHopCounter =
      session.successfulHopCounter ∧
    (addParallelRootIfSource options nodeId session).stopped = session.stopped ∧
    (addParallelRootIfSource options nodeId session).failedRequests = session.failedRequests ∧
    (addParallelRootIfSource options nodeId session).emitted = session.emitted := by
  unfold addParallelRootIfSource
  split_ifs
  · exact ⟨rfl, rfl, rfl, rfl, rfl⟩
  · exact ⟨rfl, rfl, rfl, rfl, rfl⟩

theorem Requests.sendRequest (hsession : Requests options session) {nodeId : DhtAddress}
    (hnew : nodeId ∉ session.contactedPeers) (hallowed : nodeId ∉ options.excludedNodeIds)
    (hroom : session.ongoingRequests.elements.length < options.parallelism) :
    Requests options (session.sendRequest options nodeId) := by
  have hrequested : nodeId ∉ session.requested := fun hmem ↦ hnew (hsession.contacted nodeId hmem)
  have happend {nodeIds : List DhtAddress} (hnodup : nodeIds.Nodup) (hnot : nodeId ∉ nodeIds) :
      (nodeIds ++ [nodeId]).Nodup := by
    refine List.nodup_append.mpr ⟨hnodup, List.nodup_singleton _, ?_⟩
    rintro other hother _ hlast rfl
    exact hnot (List.mem_singleton.mp hlast ▸ hother)
  refine ⟨happend hsession.nodup hrequested, fun other hmem ↦ ?_, fun other hmem ↦ ?_,
    happend hsession.unanswered_nodup fun hmem ↦
      hrequested (hsession.unanswered_requested nodeId hmem),
    fun other hmem ↦ ?_, fun other hmem ↦ ?_,
    (OrderedSet.length_add_le _ _).trans hroom⟩
  · rcases List.mem_append.mp hmem with hold | hlast
    · exact hsession.not_excluded other hold
    · exact List.mem_singleton.mp hlast ▸ hallowed
  · rcases List.mem_append.mp hmem with hold | hlast
    · exact OrderedSet.mem_add.mpr (Or.inr (hsession.contacted other hold))
    · exact OrderedSet.mem_add.mpr (Or.inl (List.mem_singleton.mp hlast))
  · exact List.mem_append.mpr ((List.mem_append.mp hmem).imp_left
      (hsession.unanswered_requested other))
  · rcases List.mem_append.mp hmem with hold | hlast
    · exact OrderedSet.mem_add.mpr (Or.inr (hsession.unanswered_ongoing other hold))
    · exact OrderedSet.mem_add.mpr (Or.inl (List.mem_singleton.mp hlast))

/-- What sending requests leaves alone; the unanswered requests stay unanswered. -/
structure Sends (session after : Session) : Prop where
  failedHopCounter : after.failedHopCounter = session.failedHopCounter
  successfulHopCounter : after.successfulHopCounter = session.successfulHopCounter
  stopped : after.stopped = session.stopped
  failedRequests : after.failedRequests = session.failedRequests
  emitted : after.emitted = session.emitted
  unanswered : ∀ nodeId ∈ session.unanswered, nodeId ∈ after.unanswered

theorem sends_sendRequest (options : RoutingSessionOptions) (nodeId : DhtAddress)
    (session : Session) : Sends session (session.sendRequest options nodeId) := by
  obtain ⟨hfailed, hsuccessful, hstopped, hrequests, hemitted⟩ :=
    addParallelRootIfSource_fields options nodeId session
  exact ⟨hfailed, hsuccessful, hstopped, hrequests, hemitted, fun _ ↦ List.mem_append_left _⟩

/-- The loop of `sendMoreRequests`, for peers that have not been contacted. -/
theorem Requests.sendRequests {uncontacted : List DhtAddress} (hsession : Requests options session)
    (hnodup : uncontacted.Nodup) (hnew : ∀ nodeId ∈ uncontacted,
      nodeId ∉ session.contactedPeers ∧ nodeId ∉ options.excludedNodeIds) :
    Requests options (session.sendRequests options uncontacted) ∧
      Sends session (session.sendRequests options uncontacted) := by
  induction uncontacted generalizing session with
  | nil => exact ⟨hsession, rfl, rfl, rfl, rfl, rfl, fun _ hmem ↦ hmem⟩
  | cons nextPeer uncontacted ih =>
    rw [Session.sendRequests]
    split_ifs with hroom
    · obtain ⟨hnot, hnodup⟩ := List.nodup_cons.mp hnodup
      obtain ⟨hcontacted, hallowed⟩ := hnew nextPeer List.mem_cons_self
      have hsent := sends_sendRequest options nextPeer session
      obtain ⟨hrequests, hrest⟩ := ih (hsession.sendRequest hcontacted hallowed hroom) hnodup
        fun nodeId hmem ↦ by
          obtain ⟨hother, hallowed⟩ := hnew nodeId (List.mem_cons_of_mem _ hmem)
          refine ⟨fun hadded ↦ ?_, hallowed⟩
          rcases OrderedSet.mem_add.mp hadded with rfl | hold
          · exact hnot hmem
          · exact hother hold
      exact ⟨hrequests, hrest.failedHopCounter.trans hsent.failedHopCounter,
        hrest.successfulHopCounter.trans hsent.successfulHopCounter,
        hrest.stopped.trans hsent.stopped, hrest.failedRequests.trans hsent.failedRequests,
        hrest.emitted.trans hsent.emitted,
        fun nodeId hmem ↦ hrest.unanswered nodeId (hsent.unanswered nodeId hmem)⟩
    · exact ⟨hsession, rfl, rfl, rfl, rfl, rfl, fun _ hmem ↦ hmem⟩

/-- Where there is room for a request and a peer to ask, one is sent. -/
theorem Requests.unanswered_sendRequests {uncontacted : List DhtAddress}
    (hsession : Requests options session) (hnodup : uncontacted.Nodup)
    (hnew : ∀ nodeId ∈ uncontacted,
      nodeId ∉ session.contactedPeers ∧ nodeId ∉ options.excludedNodeIds)
    (hroom : session.ongoingRequests.elements.length < options.parallelism)
    (hne : uncontacted ≠ []) : (session.sendRequests options uncontacted).unanswered ≠ [] := by
  cases uncontacted with
  | nil => exact absurd rfl hne
  | cons nextPeer uncontacted =>
    rw [Session.sendRequests, if_pos hroom]
    obtain ⟨hnot, hnodup⟩ := List.nodup_cons.mp hnodup
    obtain ⟨hcontacted, hallowed⟩ := hnew nextPeer List.mem_cons_self
    have hsent := (hsession.sendRequest hcontacted hallowed hroom).sendRequests hnodup
      fun nodeId hmem ↦ by
        obtain ⟨hother, hallowed⟩ := hnew nodeId (List.mem_cons_of_mem _ hmem)
        refine ⟨fun hadded ↦ ?_, hallowed⟩
        rcases OrderedSet.mem_add.mp hadded with rfl | hold
        · exact hnot hmem
        · exact hother hold
    exact List.ne_nil_of_mem (hsent.2.unanswered nextPeer
      (List.mem_append_right _ List.mem_cons_self))

/-! ### Outcomes -/

/-- A failure was emitted after `maxFailedHops` failed requests, or when nobody was left to ask. -/
def Emission.Late (emission : Emission) : Prop :=
  emission.outcome ≠ .routingSucceeded →
    maxFailedHops ≤ emission.failedRequests ∨ (emission.unanswered = [] ∧ emission.routable = [])

/-- What is expected of a session. -/
structure Correct (options : RoutingSessionOptions) (session : Session) : Prop where
  requests_once : session.requested.Nodup ∧
    ∀ nodeId ∈ session.requested, nodeId ∉ options.excludedNodeIds
  unanswered_le : session.unanswered.length ≤ options.parallelism
  failure_late : ∀ emission ∈ session.emitted, Emission.Late emission
  finishes : session.stopped = false → session.unanswered = [] → session.emitted ≠ []

/-- What holds in every state of a session. The counter of failures is up to date until the session
is stopped. -/
structure Invariant (options : RoutingSessionOptions) (session : Session) : Prop where
  requests : Requests options session
  failedHopCounter_le : session.failedHopCounter ≤ session.failedRequests
  failedHopCounter_eq : session.stopped = false →
    session.failedHopCounter = session.failedRequests
  failure_late : ∀ emission ∈ session.emitted, Emission.Late emission
  finishes : session.stopped = false → session.unanswered = [] → session.emitted ≠ []

theorem Invariant.correct (hsession : Invariant options session) : Correct options session :=
  ⟨⟨hsession.requests.nodup, hsession.requests.not_excluded⟩,
    hsession.requests.length_unanswered_le, hsession.failure_late, hsession.finishes⟩

/-- An outcome that is emitted at the right time ends the session. -/
theorem Invariant.emit (hrequests : Requests options session)
    (hle : session.failedHopCounter ≤ session.failedRequests)
    (heq : session.stopped = false → session.failedHopCounter = session.failedRequests)
    (hlate : ∀ emission ∈ session.emitted, Emission.Late emission)
    (node : Node getPeerDistance Remote) {outcome : Outcome}
    (houtcome : outcome = .routingSucceeded ∨ maxFailedHops ≤ session.failedRequests ∨
      (session.unanswered = [] ∧ session.updateAndGetRoutablePeers options node = [])) :
    Invariant options (session.emit options node outcome) := by
  refine ⟨⟨hrequests.nodup, hrequests.not_excluded, hrequests.contacted,
    hrequests.unanswered_nodup, hrequests.unanswered_requested, hrequests.unanswered_ongoing,
    hrequests.ongoing_le⟩, hle, heq, fun emission hmem ↦ ?_, fun _ _ ↦ ?_⟩
  · rcases List.mem_append.mp hmem with hold | hlast
    · exact hlate emission hold
    · rw [List.mem_singleton.mp hlast]
      exact fun hne ↦ houtcome.resolve_left hne
  · exact List.append_ne_nil_of_right_ne_nil _ (List.cons_ne_nil _ _)

/-- The condition under which a reply neither ends the session too early nor leaves it without a
request and without an outcome. -/
def GoesOn (options : RoutingSessionOptions) (session : Session) :
    Event getPeerDistance Remote → Prop
  | .succeeded nodeId node =>
    session.stopped = true ∨ options.parallelism ≤ session.successfulHopCounter + 1 ∨
      session.updateAndGetRoutablePeers options node = [] ∨
      (session.answered nodeId).unanswered ≠ [] ∨ session.emitted ≠ []
  | .failed nodeId node =>
    session.stopped = true ∨ maxFailedHops ≤ session.failedHopCounter + 1 ∨
      session.updateAndGetRoutablePeers options node ≠ [] ∨
      (session.answered nodeId).unanswered = []
  | .stop => True

/-- What the start of `onRequestFailed` leaves alone. -/
theorem countFailure_fields (options : RoutingSessionOptions) (nodeId : DhtAddress)
    (session : Session) :
    (countFailure options nodeId session).contactedPeers = session.contactedPeers ∧
    (countFailure options nodeId session).stopped = session.stopped ∧
    (countFailure options nodeId session).requested = session.requested ∧
    (countFailure options nodeId session).unanswered = session.unanswered ∧
    (countFailure options nodeId session).failedRequests = session.failedRequests ∧
    (countFailure options nodeId session).emitted = session.emitted := by
  unfold countFailure deleteParallelRootIfSource
  split_ifs
  · exact ⟨rfl, rfl, rfl, rfl, rfl, rfl⟩
  · exact ⟨rfl, rfl, rfl, rfl, rfl, rfl⟩

/-- A request that has failed is not ongoing any more. -/
theorem Requests.countFailure (hsession : Requests options session) {nodeId : DhtAddress}
    (hnot : nodeId ∉ session.unanswered) :
    Requests options (session.countFailure options nodeId) := by
  obtain ⟨hcontacted, -, hrequested, hunanswered, -, -⟩ :=
    countFailure_fields options nodeId session
  refine ⟨?_, ?_, ?_, ?_, ?_, ?_, ?_⟩
  · rw [hrequested]
    exact hsession.nodup
  · rw [hrequested]
    exact hsession.not_excluded
  · rw [hrequested, hcontacted]
    exact hsession.contacted
  · rw [hunanswered]
    exact hsession.unanswered_nodup
  · rw [hunanswered, hrequested]
    exact hsession.unanswered_requested
  · rw [hunanswered]
    exact fun other hmem ↦ OrderedSet.mem_delete.mpr
      ⟨hsession.unanswered_ongoing other hmem, fun heq ↦ hnot (heq ▸ hmem)⟩
  · exact (List.length_filter_le _ _).trans hsession.ongoing_le

theorem Invariant.succeeded (hsession : Invariant options session) {nodeId : DhtAddress}
    {node : Node getPeerDistance Remote} (hmem : nodeId ∈ session.unanswered)
    (hgoes : GoesOn options session (.succeeded nodeId node)) :
    Invariant options ((session.answered nodeId).onRequestSucceeded options node) := by
  have hrequests := hsession.requests.answered nodeId
  have hongoing : (session.answered nodeId).ongoingRequests.elements.length ≠ 0 := fun hzero ↦
    List.ne_nil_of_mem (hsession.requests.unanswered_ongoing nodeId hmem)
      (List.eq_nil_of_length_eq_zero hzero)
  have hcounted : Requests options { session.answered nodeId with
      successfulHopCounter := session.successfulHopCounter + 1 } :=
    ⟨hrequests.nodup, hrequests.not_excluded, hrequests.contacted, hrequests.unanswered_nodup,
      hrequests.unanswered_requested, hrequests.unanswered_ongoing, hrequests.ongoing_le⟩
  unfold onRequestSucceeded
  dsimp only
  split_ifs with hstopped hparallelism hcontacts hnone
  · exact ⟨hrequests, hsession.failedHopCounter_le, hsession.failedHopCounter_eq,
      hsession.failure_late, fun hnot ↦ absurd (hstopped.symm.trans hnot) Bool.noConfusion⟩
  · exact Invariant.emit hcounted hsession.failedHopCounter_le hsession.failedHopCounter_eq
      hsession.failure_late node (Or.inl rfl)
  · exact Invariant.emit hcounted hsession.failedHopCounter_le hsession.failedHopCounter_eq
      hsession.failure_late node (Or.inl rfl)
  · exact absurd hnone.2 hongoing
  · refine ⟨hcounted, hsession.failedHopCounter_le, hsession.failedHopCounter_eq,
      hsession.failure_late, fun hnot hempty ↦ ?_⟩
    rcases hgoes with hgoes | hgoes | hgoes | hgoes | hgoes
    · exact absurd hgoes hstopped
    · exact absurd hgoes hparallelism
    · exact absurd (congrArg List.length hgoes) hcontacts
    · exact absurd hempty hgoes
    · exact hgoes

theorem Invariant.failed (hsession : Invariant options session) {nodeId : DhtAddress}
    {node : Node getPeerDistance Remote} (hmem : nodeId ∈ session.unanswered)
    (hgoes : GoesOn options session (.failed nodeId node)) :
    Invariant options (onRequestFailed options nodeId node
      { session.answered nodeId with failedRequests := session.failedRequests + 1 }) := by
  have hle := hsession.failedHopCounter_le
  have hrequests : Requests options
      { session.answered nodeId with failedRequests := session.failedRequests + 1 } := by
    have hrequests := hsession.requests.answered nodeId
    exact ⟨hrequests.nodup, hrequests.not_excluded, hrequests.contacted,
      hrequests.unanswered_nodup, hrequests.unanswered_requested, hrequests.unanswered_ongoing,
      hrequests.ongoing_le⟩
  have hnot : nodeId ∉ (session.answered nodeId).unanswered := by simp [Session.answered]
  have hcounted := hrequests.countFailure hnot
  obtain ⟨hcontacted, hstopped, -, hunanswered, hfailed, hemitted⟩ := countFailure_fields options
    nodeId { session.answered nodeId with failedRequests := session.failedRequests + 1 }
  have hroutable := @updateAndGetRoutablePeers_congr _ _ _ getPeerDistance options _ _ hcontacted
    node
  have hsame : updateAndGetRoutablePeers options
      { session.answered nodeId with failedRequests := session.failedRequests + 1 } node =
      session.updateAndGetRoutablePeers options node := rfl
  have hroom : (Session.countFailure options nodeId { session.answered nodeId with
      failedRequests := session.failedRequests + 1 }).ongoingRequests.elements.length <
        options.parallelism :=
    (OrderedSet.length_delete_lt (hsession.requests.unanswered_ongoing nodeId hmem)).trans_le
      hsession.requests.ongoing_le
  have hcounter : (Session.countFailure options nodeId { session.answered nodeId with
      failedRequests := session.failedRequests + 1 }).failedHopCounter =
        session.failedHopCounter + 1 := rfl
  unfold onRequestFailed
  dsimp only
  by_cases hstop : session.stopped = true
  · rw [if_pos (by exact hstop)]
    exact ⟨hrequests, hle.trans (Nat.le_succ _),
      fun hnot ↦ absurd (hstop.symm.trans hnot) Bool.noConfusion, hsession.failure_late,
      fun hnot ↦ absurd (hstop.symm.trans hnot) Bool.noConfusion⟩
  rw [if_neg (by exact hstop)]
  have heq := hsession.failedHopCounter_eq (Bool.eq_false_iff.mpr hstop)
  generalize Session.countFailure options nodeId { session.answered nodeId with
    failedRequests := session.failedRequests + 1 } = counted at *
  have hcounter_eq : counted.failedHopCounter = counted.failedRequests := by
    rw [hcounter, hfailed, heq]
  have hlate : ∀ emission ∈ counted.emitted, Emission.Late emission :=
    hemitted ▸ hsession.failure_late
  split_ifs with hmax hnone
  · exact Invariant.emit hcounted hcounter_eq.le (fun _ ↦ hcounter_eq) hlate node
      (Or.inr (Or.inl (hcounter_eq ▸ hmax)))
  · have hempty : counted.unanswered = [] := by
      refine List.eq_nil_iff_forall_not_mem.mpr fun other hother ↦ ?_
      exact List.ne_nil_of_mem (hcounted.unanswered_ongoing other hother)
        (List.eq_nil_of_length_eq_zero hnone.2)
    exact Invariant.emit hcounted hcounter_eq.le (fun _ ↦ hcounter_eq) hlate node
      (Or.inr (Or.inr ⟨hempty, List.eq_nil_of_length_eq_zero hnone.1⟩))
  · unfold sendMoreRequests
    split_ifs with hstop' hcontacts
    · exact absurd (hstopped.symm.trans hstop') hstop
    · -- nobody is left to ask, so no request is unanswered either
      have hempty : counted.unanswered = [] := by
        rw [hunanswered]
        rcases hgoes with hgoes | hgoes | hgoes | hgoes
        · exact absurd hgoes hstop
        · exact absurd (hcounter ▸ hgoes) hmax
        · rw [hroutable, hsame] at hcontacts
          exact absurd (List.eq_nil_of_length_eq_zero hcontacts) hgoes
        · exact hgoes
      exact Invariant.emit hcounted hcounter_eq.le (fun _ ↦ hcounter_eq) hlate node
        (Or.inr (Or.inr ⟨hempty, List.eq_nil_of_length_eq_zero hcontacts⟩))
    · obtain ⟨hnodup, hnew⟩ := counted.updateAndGetRoutablePeers_spec options node
      obtain ⟨hsent, hsends⟩ := hcounted.sendRequests hnodup hnew
      have hne := hcounted.unanswered_sendRequests hnodup hnew hroom
        fun hempty ↦ hcontacts (congrArg List.length hempty)
      refine ⟨hsent, ?_, fun _ ↦ ?_, ?_, fun _ hempty ↦ absurd hempty hne⟩
      · rw [hsends.failedHopCounter, hsends.failedRequests, hcounter_eq]
      · rw [hsends.failedHopCounter, hsends.failedRequests, hcounter_eq]
      · rw [hsends.emitted]
        exact hlate

/-! ### Runs -/

theorem Invariant.start {parallelRootNodeIds : List DhtAddress}
    {node : Node getPeerDistance Remote}
    (hstart : Session.start options parallelRootNodeIds node = some session) :
    Invariant options session := by
  unfold Session.start at hstart
  dsimp only at hstart
  split_ifs at hstart with hcontacts
  obtain rfl := Option.some.inj hstart
  have hnew : Requests options (create parallelRootNodeIds) :=
    ⟨List.nodup_nil, nofun, nofun, List.nodup_nil, nofun, nofun, Nat.zero_le _⟩
  obtain ⟨hnodup, hspec⟩ := (create parallelRootNodeIds).updateAndGetRoutablePeers_spec options node
  obtain ⟨hsent, hsends⟩ := hnew.sendRequests hnodup hspec
  have hne := hnew.unanswered_sendRequests hnodup hspec options.parallelism_pos
    fun hempty ↦ hcontacts.ne' (congrArg List.length hempty)
  rw [sendMoreRequests, if_neg (by exact Bool.false_ne_true), if_neg hcontacts.ne']
  refine ⟨hsent, ?_, fun _ ↦ ?_, ?_, fun _ hempty ↦ absurd hempty hne⟩
  · rw [hsends.failedHopCounter, hsends.failedRequests]
    rfl
  · rw [hsends.failedHopCounter, hsends.failedRequests]
    rfl
  · rw [hsends.emitted]
    exact nofun

theorem Invariant.step (hsession : Invariant options session) {after : Session}
    {event : Event getPeerDistance Remote} (hgoes : GoesOn options session event)
    (hstep : session.step options event = some after) : Invariant options after := by
  cases event with
  | succeeded nodeId node =>
    rw [Session.step] at hstep
    split_ifs at hstep with hmem
    obtain rfl := Option.some.inj hstep
    exact hsession.succeeded hmem hgoes
  | failed nodeId node =>
    rw [Session.step] at hstep
    split_ifs at hstep with hmem
    obtain rfl := Option.some.inj hstep
    exact hsession.failed hmem hgoes
  | stop =>
    obtain rfl := Option.some.inj hstep
    have hrequests := hsession.requests
    exact ⟨⟨hrequests.nodup, hrequests.not_excluded, hrequests.contacted,
      hrequests.unanswered_nodup, hrequests.unanswered_requested, hrequests.unanswered_ongoing,
      hrequests.ongoing_le⟩, hsession.failedHopCounter_le, nofun, hsession.failure_late, nofun⟩

/-- A success that does not meet the condition leaves the session without a request and without an
outcome. -/
theorem not_correct_of_succeeded {nodeId : DhtAddress} {node : Node getPeerDistance Remote}
    (hsession : Invariant options session) (hmem : nodeId ∈ session.unanswered)
    (hgoes : ¬GoesOn options session (.succeeded nodeId node)) :
    ¬Correct options ((session.answered nodeId).onRequestSucceeded options node) := by
  simp only [GoesOn, not_or, not_not] at hgoes
  obtain ⟨hstopped, hparallelism, hcontacts, hunanswered, hemitted⟩ := hgoes
  have hongoing : session.ongoingRequests.elements.length ≠ 0 := fun hzero ↦
    List.ne_nil_of_mem (hsession.requests.unanswered_ongoing nodeId hmem)
      (List.eq_nil_of_length_eq_zero hzero)
  have hlength : (session.updateAndGetRoutablePeers options node).length ≠ 0 := fun hzero ↦
    hcontacts (List.eq_nil_of_length_eq_zero hzero)
  have hafter : (session.answered nodeId).onRequestSucceeded options node =
      { session.answered nodeId with
        successfulHopCounter := session.successfulHopCounter + 1 } := by
    unfold onRequestSucceeded
    dsimp only
    rw [if_neg (by exact hstopped), if_neg (by exact hparallelism), if_neg (by exact hlength),
      if_neg (by exact fun hnone ↦ hongoing hnone.2)]
    rfl
  rw [hafter]
  exact fun hcorrect ↦ hcorrect.finishes (Bool.eq_false_iff.mpr hstopped) hunanswered hemitted

/-- A failure that does not meet the condition ends the session with a request unanswered. -/
theorem not_correct_of_failed {nodeId : DhtAddress} {node : Node getPeerDistance Remote}
    (hsession : Invariant options session)
    (hgoes : ¬GoesOn options session (.failed nodeId node)) :
    ¬Correct options (onRequestFailed options nodeId node
      { session.answered nodeId with failedRequests := session.failedRequests + 1 }) := by
  simp only [GoesOn, not_or, not_not] at hgoes
  obtain ⟨hstopped, hmax, hcontacts, hunanswered⟩ := hgoes
  have heq := hsession.failedHopCounter_eq (Bool.eq_false_iff.mpr hstopped)
  obtain ⟨hcontacted, hstopped', -, hunanswered', hfailed, -⟩ := countFailure_fields options
    nodeId { session.answered nodeId with failedRequests := session.failedRequests + 1 }
  have hcontacts' := (@updateAndGetRoutablePeers_congr _ _ _ getPeerDistance options _ _
    hcontacted node).trans hcontacts
  have hcounter : (Session.countFailure options nodeId { session.answered nodeId with
      failedRequests := session.failedRequests + 1 }).failedHopCounter =
        session.failedHopCounter + 1 := rfl
  intro hcorrect
  unfold onRequestFailed at hcorrect
  dsimp only at hcorrect
  rw [if_neg (by exact hstopped)] at hcorrect
  generalize Session.countFailure options nodeId { session.answered nodeId with
    failedRequests := session.failedRequests + 1 } = counted at *
  have hafter : sendMoreRequests options node [] counted = counted.emitFailure options node := by
    rw [sendMoreRequests, if_neg (by rw [hstopped']; exact hstopped)]
    rfl
  rw [if_neg (by rw [hcounter]; exact hmax), hcontacts', hafter, ite_self] at hcorrect
  have hlate := hcorrect.failure_late _ (List.mem_append_right _ List.mem_cons_self)
    (by dsimp only; split_ifs <;> exact Outcome.noConfusion)
  rcases hlate with hlate | hlate
  · rw [hfailed, ← heq] at hlate
    exact hmax hlate
  · rw [hunanswered'] at hlate
    exact hunanswered hlate.1

/-- Assumes: a run in which every reply meets the condition. In each of its states, no peer is asked
twice and no excluded one at all, no more requests are unanswered than `parallelism` allows, a
failure was only emitted at the right time, and an outcome was emitted when no request is
unanswered. A reply that does not meet the condition is followed by a state in which this is not
so. -/
theorem correct_of_goesOn (options : RoutingSessionOptions)
    (parallelRootNodeIds : List DhtAddress) (node : Node getPeerDistance Remote)
    (session : Session) (hreachable : Transition.Reachable
      (fun session (event : Event getPeerDistance Remote) ↦ session.step options event)
      (GoesOn options) (Session.start options parallelRootNodeIds node = some ·) session) :
    Correct options session ∧
    ∀ (event : Event getPeerDistance Remote) (after : Session),
      session.step options event = some after → ¬GoesOn options session event →
        ¬Correct options after := by
  have hsession : Invariant options session := by
    refine hreachable.invariant (fun session hstart ↦ Invariant.start hstart) ?_
    exact fun session event after _ hsession hgoes hstep ↦ hsession.step hgoes hstep
  refine ⟨hsession.correct, fun event after hstep hgoes ↦ ?_⟩
  cases event with
  | succeeded nodeId node =>
    rw [Session.step] at hstep
    split_ifs at hstep with hmem
    obtain rfl := Option.some.inj hstep
    exact not_correct_of_succeeded hsession hmem hgoes
  | failed nodeId node =>
    rw [Session.step] at hstep
    split_ifs at hstep with hmem
    obtain rfl := Option.some.inj hstep
    exact not_correct_of_failed hsession hgoes
  | stop => exact absurd trivial hgoes

instance decidableGoesOn (options : RoutingSessionOptions) (session : Session) :
    (event : Event getPeerDistance Remote) → Decidable (GoesOn options session event)
  | .succeeded _ _ => inferInstanceAs (Decidable (_ ∨ _ ∨ _ ∨ ¬_ ∨ ¬_))
  | .failed _ _ => inferInstanceAs (Decidable (_ ∨ _ ∨ ¬_ ∨ _))
  | .stop => inferInstanceAs (Decidable True)

/-- A node that is connected to nodes with small addresses. -/
def nodeOf (bytes : List UInt8) : Node kBucketDistance Unit :=
  (Transition.run Node.step (Node.create kBucketDistance Unit) (bytes.map connect)).getD
    (Node.create kBucketDistance Unit)

/-- The options of a source that routes to the address zero. -/
def sampleOptions : RoutingSessionOptions where
  targetId := smallAddress 0
  previousId := none
  localNodeId := smallAddress 255
  sourceNodeId := smallAddress 255
  parallelism := 2
  mode := .recursive
  excludedNodeIds := []
  parallelism_pos := Nat.two_pos

/-- A run of a session at such a node. -/
def sampleStep (session : Session) (event : Event kBucketDistance Unit) : Option Session :=
  session.step sampleOptions event

/-- Two requests; the first one fails, and one more is sent to a node that has connected. The second
one succeeds, and nobody else is routable. -/
theorem succeeded_after_retry :
    ∃ session : Session,
      Transition.Reachable sampleStep (GoesOn sampleOptions)
        (Session.start sampleOptions [] (nodeOf [1, 2]) = some ·) session ∧
      session.requested = [1, 2, 3].map smallAddress ∧
      session.emitted.map Emission.outcome = [.routingSucceeded] ∧
      Correct sampleOptions session := by
  have hrun : ((Session.start sampleOptions [] (nodeOf [1, 2])).bind fun session ↦
      Transition.checkedRun sampleStep (fun session event ↦ decide (GoesOn sampleOptions session
        event)) session [.failed (smallAddress 1) (nodeOf [1, 2, 3]),
          .succeeded (smallAddress 2) (nodeOf [1, 2, 3])]).map
        (fun session ↦ (session.requested, session.emitted.map Emission.outcome)) =
      some ([1, 2, 3].map smallAddress, [.routingSucceeded]) := by
    decide +kernel
  obtain ⟨session, hsession, hfacts⟩ := Option.map_eq_some_iff.mp hrun
  obtain ⟨first, hstart, hsession⟩ := Option.bind_eq_some_iff.mp hsession
  rw [Prod.mk.injEq] at hfacts
  have hreachable : Transition.Reachable sampleStep (GoesOn sampleOptions)
      (Session.start sampleOptions [] (nodeOf [1, 2]) = some ·) session :=
    .of_checkedRun _ (fun _ _ ↦ of_decide_eq_true) (.start hstart) hsession
  exact ⟨session, hreachable, hfacts.1, hfacts.2,
    (correct_of_goesOn sampleOptions [] (nodeOf [1, 2]) session hreachable).1⟩

/-- One request succeeds when another node has connected: the session has neither a request nor an
outcome. And of two requests the first one fails when nobody else is connected: the session has
failed although the second one is unanswered. -/
theorem stuck_and_failed_early :
    (∃ session : Session,
      Transition.Reachable sampleStep (fun _ _ ↦ True)
        (Session.start sampleOptions [] (nodeOf [1]) = some ·) session ∧
      session.stopped = false ∧ session.requested = [smallAddress 1] ∧
      session.unanswered = [] ∧ session.emitted = []) ∧
    ∃ session : Session,
      Transition.Reachable sampleStep (fun _ _ ↦ True)
        (Session.start sampleOptions [] (nodeOf [1, 2]) = some ·) session ∧
      session.emitted = [⟨.routingFailed, 1, [smallAddress 2], []⟩] := by
  constructor
  · have hrun : ((Session.start sampleOptions [] (nodeOf [1])).bind fun session ↦
        Transition.run sampleStep session [.succeeded (smallAddress 1) (nodeOf [1, 2])]).map
          (fun session ↦ ((session.stopped, session.requested),
            (session.unanswered, session.emitted))) =
        some ((false, [smallAddress 1]), ([], [])) := by
      decide +kernel
    obtain ⟨session, hsession, hfacts⟩ := Option.map_eq_some_iff.mp hrun
    obtain ⟨first, hstart, hsession⟩ := Option.bind_eq_some_iff.mp hsession
    simp only [Prod.mk.injEq] at hfacts
    obtain ⟨⟨hstopped, hrequested⟩, hunanswered, hemitted⟩ := hfacts
    exact ⟨session, .of_run _ (fun _ _ _ ↦ trivial) (.start hstart) hsession, hstopped, hrequested,
      hunanswered, hemitted⟩
  · have hrun : ((Session.start sampleOptions [] (nodeOf [1, 2])).bind fun session ↦
        Transition.run sampleStep session [.failed (smallAddress 1) (nodeOf [1, 2])]).map
          Session.emitted = some [⟨.routingFailed, 1, [smallAddress 2], []⟩] := by
      decide +kernel
    obtain ⟨session, hsession, hfacts⟩ := Option.map_eq_some_iff.mp hrun
    obtain ⟨first, hstart, hsession⟩ := Option.bind_eq_some_iff.mp hsession
    exact ⟨session, .of_run _ (fun _ _ _ ↦ trivial) (.start hstart) hsession, hfacts⟩

end Session

end PomboStorageNode.Dht.RoutingSession
