import Mathlib.Data.Int.Notation
import PomboStorageNode.TrackerlessNetwork.NodeList
import PomboStorageNode.Library.Transition

/-!
# The Plumtree manager of a node

`PlumtreeManager.ts` lets a node ask its neighbours to pause the messages of a chain: a duplicate
pauses the neighbour that sent it, and metadata that is ahead of the messages resumes the neighbour
that sent the metadata. A paused neighbour sends metadata only. `localPausedNeighbors` are the
neighbours that paused this node, `remotePausedNeighbors` the ones that this node paused.

A step of a node is one stretch of code up to an `await` or a `setImmediate`. When a neighbour is
removed and all others are paused, the first of them is resumed; but the node also pauses its last
source when a duplicate comes from it (`only_neighbor_paused`). `keeps_source_of_leavesSource` says
that a node without outstanding callbacks has a neighbour that is not paused, for each chain, if no
duplicate pauses the last source; and that such a duplicate leaves the node without one.
-/

set_option autoImplicit false

namespace PomboStorageNode.TrackerlessNetwork.Plumtree

open Library

/-! ### Paused neighbours -/

/-- `PausedNeighbors`. -/
structure PausedNeighbors (Chain DhtAddress : Type*) where
  pausedNeighbors : OrderedMap Chain (OrderedSet DhtAddress)
  limit : ℕ

namespace PausedNeighbors

variable {Chain DhtAddress : Type*}

/-- Nothing is paused. -/
def create (limit : ℕ) : PausedNeighbors Chain DhtAddress := ⟨OrderedMap.empty, limit⟩

variable [DecidableEq Chain] [DecidableEq DhtAddress]

/-- `add`. -/
def add (paused : PausedNeighbors Chain DhtAddress) (node : DhtAddress) (msgChainId : Chain) :
    PausedNeighbors Chain DhtAddress :=
  let neighbors := (paused.pausedNeighbors.get? msgChainId).getD OrderedSet.empty
  { paused with
    pausedNeighbors := paused.pausedNeighbors.set msgChainId
      (if neighbors.elements.length < paused.limit then neighbors.add node else neighbors) }

/-- `delete`. -/
def delete (paused : PausedNeighbors Chain DhtAddress) (node : DhtAddress) (msgChainId : Chain) :
    PausedNeighbors Chain DhtAddress :=
  match paused.pausedNeighbors.get? msgChainId with
  | none => paused
  | some neighbors =>
    { paused with
      pausedNeighbors :=
        if (neighbors.delete node).elements = [] then paused.pausedNeighbors.delete msgChainId
        else paused.pausedNeighbors.set msgChainId (neighbors.delete node) }

/-- `deleteAll`: what is done for each chain is a `delete`. -/
def deleteAll (paused : PausedNeighbors Chain DhtAddress) (node : DhtAddress) :
    PausedNeighbors Chain DhtAddress :=
  paused.pausedNeighbors.keys.foldl (fun paused msgChainId ↦ paused.delete node msgChainId) paused

/-- `isPaused`. -/
def isPaused (paused : PausedNeighbors Chain DhtAddress) (node : DhtAddress)
    (msgChainId : Chain) : Bool :=
  match paused.pausedNeighbors.get? msgChainId with
  | none => false
  | some neighbors => node ∈ neighbors

/-- `size`. -/
def size (paused : PausedNeighbors Chain DhtAddress) (msgChainId : Chain) : ℕ :=
  match paused.pausedNeighbors.get? msgChainId with
  | none => 0
  | some neighbors => neighbors.elements.length

theorem isPaused_iff {paused : PausedNeighbors Chain DhtAddress} {node : DhtAddress}
    {msgChainId : Chain} : paused.isPaused node msgChainId = true ↔
      ∃ neighbors, paused.pausedNeighbors.get? msgChainId = some neighbors ∧ node ∈ neighbors := by
  unfold isPaused
  split
  case _ hnone => simp [hnone]
  case _ neighbors hsome => simp [hsome]

/-- An `add` pauses the node at most, for its chain only. -/
theorem isPaused_add {paused : PausedNeighbors Chain DhtAddress} {node other : DhtAddress}
    {msgChainId chain : Chain} (hpaused : (paused.add node msgChainId).isPaused other chain) :
    paused.isPaused other chain ∨ other = node ∧ chain = msgChainId := by
  obtain ⟨neighbors, hget, hmem⟩ := isPaused_iff.mp hpaused
  rw [add] at hget
  dsimp only at hget
  by_cases heq : chain = msgChainId
  · subst heq
    rw [OrderedMap.get?_set_self, Option.some.injEq] at hget
    rw [← hget] at hmem
    have hor : other = node ∨
        other ∈ (paused.pausedNeighbors.get? chain).getD OrderedSet.empty := by
      split_ifs at hmem
      · exact OrderedSet.mem_add.mp hmem
      · exact Or.inr hmem
    rcases hor with rfl | hold
    · exact Or.inr ⟨rfl, rfl⟩
    · left
      cases hchain : paused.pausedNeighbors.get? chain with
      | none =>
        rw [hchain] at hold
        exact absurd hold (OrderedSet.notMem_empty other)
      | some set =>
        rw [hchain] at hold
        exact isPaused_iff.mpr ⟨set, hchain, hold⟩
  · rw [OrderedMap.get?_set_of_ne _ _ heq] at hget
    exact Or.inl (isPaused_iff.mpr ⟨neighbors, hget, hmem⟩)

/-- An `add` keeps what is paused. -/
theorem isPaused_add_of_isPaused {paused : PausedNeighbors Chain DhtAddress}
    {node other : DhtAddress} {msgChainId chain : Chain} (hpaused : paused.isPaused other chain) :
    (paused.add node msgChainId).isPaused other chain := by
  obtain ⟨neighbors, hget, hmem⟩ := isPaused_iff.mp hpaused
  rw [isPaused_iff, add]
  dsimp only
  by_cases heq : chain = msgChainId
  · subst heq
    refine ⟨_, OrderedMap.get?_set_self _ _ _, ?_⟩
    rw [hget, Option.getD_some]
    split_ifs
    · exact OrderedSet.mem_add.mpr (Or.inr hmem)
    · exact hmem
  · exact ⟨neighbors, by rw [OrderedMap.get?_set_of_ne _ _ heq, hget], hmem⟩

/-- An `add` below the limit pauses the node. -/
theorem isPaused_add_self {paused : PausedNeighbors Chain DhtAddress} {node : DhtAddress}
    {msgChainId : Chain} (hroom : paused.size msgChainId < paused.limit) :
    (paused.add node msgChainId).isPaused node msgChainId := by
  rw [isPaused_iff, add]
  dsimp only
  refine ⟨_, OrderedMap.get?_set_self _ _ _, ?_⟩
  rw [if_pos]
  · exact OrderedSet.mem_add.mpr (Or.inl rfl)
  · rw [size] at hroom
    cases hchain : paused.pausedNeighbors.get? msgChainId with
    | none => rwa [hchain] at hroom
    | some set => rwa [hchain] at hroom

@[simp] theorem limit_delete (paused : PausedNeighbors Chain DhtAddress) (node : DhtAddress)
    (msgChainId : Chain) : (paused.delete node msgChainId).limit = paused.limit := by
  unfold delete
  split <;> rfl

/-- A `delete` resumes the node for its chain, and nothing else. -/
@[simp] theorem isPaused_delete {paused : PausedNeighbors Chain DhtAddress}
    {node other : DhtAddress} {msgChainId chain : Chain} :
    (paused.delete node msgChainId).isPaused other chain = true ↔
      paused.isPaused other chain = true ∧ ¬(other = node ∧ chain = msgChainId) := by
  unfold delete
  split
  case _ hnone =>
    refine ⟨fun hpaused ↦ ⟨hpaused, ?_⟩, And.left⟩
    rintro ⟨rfl, rfl⟩
    obtain ⟨neighbors, hget, -⟩ := isPaused_iff.mp hpaused
    rw [hnone] at hget
    cases hget
  case _ neighbors hsome =>
    rw [isPaused_iff, isPaused_iff]
    dsimp only
    by_cases heq : chain = msgChainId
    · subst heq
      split_ifs with hempty
      · rw [OrderedMap.get?_delete_self, hsome]
        have hall : ∀ element, element ∈ neighbors → element = node := by
          intro element helement
          by_contra hne
          have hmem : element ∈ neighbors.delete node :=
            OrderedSet.mem_delete.mpr ⟨helement, hne⟩
          rw [OrderedSet.mem_def, hempty] at hmem
          exact absurd hmem List.not_mem_nil
        simp only [reduceCtorEq, false_and, exists_false, Option.some.injEq, and_true, false_iff,
          not_and, not_not]
        rintro ⟨set, rfl, hmem⟩
        exact hall other hmem
      · rw [OrderedMap.get?_set_self, hsome]
        simp
    · split_ifs with hempty
      · rw [OrderedMap.get?_delete_of_ne _ heq]
        simp [heq]
      · rw [OrderedMap.get?_set_of_ne _ _ heq]
        simp [heq]

/-- A `deleteAll` resumes the node for every chain, and nothing else. -/
@[simp] theorem isPaused_deleteAll {paused : PausedNeighbors Chain DhtAddress}
    {node other : DhtAddress} {chain : Chain} :
    (paused.deleteAll node).isPaused other chain = true ↔
      paused.isPaused other chain = true ∧ other ≠ node := by
  have hloop : ∀ (chains : List Chain) (paused : PausedNeighbors Chain DhtAddress),
      (chains.foldl (fun paused msgChainId ↦ paused.delete node msgChainId) paused).isPaused other
        chain = true ↔
      paused.isPaused other chain = true ∧ ¬(other = node ∧ chain ∈ chains) := by
    intro chains
    induction chains with
    | nil => simp
    | cons first chains ih =>
      intro paused
      rw [List.foldl_cons, ih, isPaused_delete, List.mem_cons]
      tauto
  rw [deleteAll, hloop]
  refine and_congr_right fun hpaused ↦ not_congr (and_iff_left ?_)
  obtain ⟨neighbors, hget, -⟩ := isPaused_iff.mp hpaused
  exact OrderedMap.mem_keys_iff.mpr ⟨neighbors, hget⟩

@[simp] theorem limit_deleteAll (paused : PausedNeighbors Chain DhtAddress) (node : DhtAddress) :
    (paused.deleteAll node).limit = paused.limit := by
  have hloop : ∀ (chains : List Chain) (paused : PausedNeighbors Chain DhtAddress),
      (chains.foldl (fun paused msgChainId ↦ paused.delete node msgChainId) paused).limit =
        paused.limit := by
    intro chains
    induction chains with
    | nil => exact fun _ ↦ rfl
    | cons first chains ih =>
      intro paused
      rw [List.foldl_cons, ih, limit_delete]
  exact hloop _ _

end PausedNeighbors

/-! ### The manager -/

/-- What the manager reads of a message and of its metadata. -/
structure MessageID (Chain : Type*) where
  messageChainId : Chain
  timestamp : ℤ
  deriving DecidableEq

/-- The notifications of `PlumtreeRpc`. -/
inductive Notification (Chain : Type*)
  | pauseNeighbor (messageChainId : Chain)
  | resumeNeighbor (fromTimestamp : ℤ) (messageChainId : Chain)
  | sendMetadata (msg : MessageID Chain)
  deriving DecidableEq

/-- What a node sends to another one: a notification, or a message. -/
inductive Sent (Chain DhtAddress : Type*)
  | notification (node : DhtAddress) (notification : Notification Chain)
  | streamMessage (node : DhtAddress) (msg : MessageID Chain)
  deriving DecidableEq

/-- The callbacks that are given to `setImmediate`. -/
inductive Immediate (Chain DhtAddress : Type*)
  | resumeNeighbor (node : DhtAddress) (msgChainId : Chain)
  | sendMetadata (node : DhtAddress) (msg : MessageID Chain)
  | sendStreamMessage (node : DhtAddress) (msg : MessageID Chain)
  deriving DecidableEq

/-- `PlumtreeManager` with its node list, the callbacks that are scheduled, and the chains for which
a call of `onMetadata` is in its `await`. -/
structure PlumtreeManager (Chain DhtAddress : Type*) where
  neighbors : NodeList DhtAddress
  localPausedNeighbors : PausedNeighbors Chain DhtAddress
  remotePausedNeighbors : PausedNeighbors Chain DhtAddress
  latestMessages : OrderedMap Chain (List (MessageID Chain))
  metadataTimestampsAheadOfRealData : OrderedMap Chain (OrderedSet ℤ)
  maxPausedNeighbors : ℕ
  scheduled : List (Immediate Chain DhtAddress)
  awaiting : List Chain

/-- `MAX_PAUSED_NEIGHBORS_DEFAULT`. -/
def maxPausedNeighborsDefault : ℕ := 3

/-- How many messages of a chain are buffered. -/
def latestMessagesLimit : ℕ := 20

namespace PlumtreeManager

variable {Chain DhtAddress : Type*}

/-- A new manager on an empty node list. -/
def create (ownId : DhtAddress) (limit maxPausedNeighbors : ℕ) :
    PlumtreeManager Chain DhtAddress :=
  ⟨NodeList.create ownId limit, PausedNeighbors.create maxPausedNeighbors,
    PausedNeighbors.create maxPausedNeighbors, OrderedMap.empty, OrderedMap.empty,
    maxPausedNeighbors, [], []⟩

variable [DecidableEq Chain] [DecidableEq DhtAddress]

/-- Whether `pauseNeighbor` pauses a node. -/
def wouldPause (manager : PlumtreeManager Chain DhtAddress) (node : DhtAddress)
    (msgChainId : Chain) : Bool :=
  manager.neighbors.has node && !manager.remotePausedNeighbors.isPaused node msgChainId &&
    decide (manager.remotePausedNeighbors.size msgChainId < manager.maxPausedNeighbors)

/-- `pauseNeighbor`. -/
def pauseNeighbor (manager : PlumtreeManager Chain DhtAddress) (node : DhtAddress)
    (msgChainId : Chain) : PlumtreeManager Chain DhtAddress × List (Sent Chain DhtAddress) :=
  if manager.wouldPause node msgChainId then
    ({ manager with
        remotePausedNeighbors := manager.remotePausedNeighbors.add node msgChainId },
      [.notification node (.pauseNeighbor msgChainId)])
  else (manager, [])

/-- `resumeNeighbor`. -/
def resumeNeighbor (manager : PlumtreeManager Chain DhtAddress) (node : DhtAddress)
    (msgChainId : Chain) (fromTimestamp : ℤ) :
    PlumtreeManager Chain DhtAddress × List (Sent Chain DhtAddress) :=
  if manager.remotePausedNeighbors.isPaused node msgChainId then
    ({ manager with
        remotePausedNeighbors := manager.remotePausedNeighbors.delete node msgChainId },
      [.notification node (.resumeNeighbor fromTimestamp msgChainId)])
  else (manager, [])

/-- The callbacks that `onNeighborRemoved` schedules: the first neighbour is resumed for the chains
for which all are paused. -/
def resumesOfFirst (manager : PlumtreeManager Chain DhtAddress) :
    List (Immediate Chain DhtAddress) :=
  match manager.neighbors.getFirst [] with
  | none => []
  | some neighborToResume =>
    (manager.remotePausedNeighbors.pausedNeighbors.entries.filter fun entry ↦
      manager.neighbors.size [] ≤ entry.2.elements.length).map fun entry ↦
        .resumeNeighbor neighborToResume entry.1

/-- `onNeighborRemoved`. -/
def onNeighborRemoved (manager : PlumtreeManager Chain DhtAddress) (nodeId : DhtAddress) :
    PlumtreeManager Chain DhtAddress :=
  let forgotten :=
    { manager with
      localPausedNeighbors := manager.localPausedNeighbors.deleteAll nodeId
      remotePausedNeighbors := manager.remotePausedNeighbors.deleteAll nodeId }
  if 0 < forgotten.neighbors.size [] then
    { forgotten with scheduled := forgotten.scheduled ++ forgotten.resumesOfFirst }
  else forgotten

/-- `NodeList.remove` with the listener of the manager. -/
def removeNeighbor (manager : PlumtreeManager Chain DhtAddress) (nodeId : DhtAddress) :
    PlumtreeManager Chain DhtAddress :=
  if manager.neighbors.has nodeId then
    onNeighborRemoved { manager with neighbors := manager.neighbors.remove nodeId } nodeId
  else manager

/-- `NodeList.add`, to which the manager does not listen. -/
def addNeighbor (manager : PlumtreeManager Chain DhtAddress) (nodeId : DhtAddress) :
    PlumtreeManager Chain DhtAddress :=
  { manager with neighbors := manager.neighbors.add nodeId }

/-- `getLatestMessageTimestamp`. -/
def getLatestMessageTimestamp (manager : PlumtreeManager Chain DhtAddress) (msgChainId : Chain) :
    ℤ :=
  match (manager.latestMessages.get? msgChainId).bind List.getLast? with
  | none => 0
  | some msg => msg.timestamp

/-- `sendBuffer`. -/
def sendBuffer (manager : PlumtreeManager Chain DhtAddress) (fromTimestamp : ℤ)
    (msgChainId : Chain) (neighbor : DhtAddress) : List (Sent Chain DhtAddress) :=
  (((manager.latestMessages.get? msgChainId).getD []).filter fun msg ↦
    fromTimestamp < msg.timestamp).map fun msg ↦ .streamMessage neighbor msg

/-- `onMetadata` up to its `await`. -/
def onMetadata (manager : PlumtreeManager Chain DhtAddress) (msg : MessageID Chain)
    (previousNode : DhtAddress) :
    PlumtreeManager Chain DhtAddress × List (Sent Chain DhtAddress) :=
  let chain := msg.messageChainId
  if manager.getLatestMessageTimestamp chain < msg.timestamp then
    let ahead := ((manager.metadataTimestampsAheadOfRealData.get? chain).getD
      OrderedSet.empty).add msg.timestamp
    let marked :=
      { manager with
        metadataTimestampsAheadOfRealData :=
          manager.metadataTimestampsAheadOfRealData.set chain ahead }
    if 1 < ahead.elements.length then
      resumeNeighbor { marked with awaiting := marked.awaiting ++ [chain] } previousNode chain
        (marked.getLatestMessageTimestamp chain)
    else (marked, [])
  else (manager, [])

/-- `onMetadata` behind its `await`: the timestamps of the chain are cleared. -/
def afterMetadata (manager : PlumtreeManager Chain DhtAddress) (chain : Chain) :
    PlumtreeManager Chain DhtAddress :=
  if manager.metadataTimestampsAheadOfRealData.has chain then
    { manager with
      metadataTimestampsAheadOfRealData :=
        manager.metadataTimestampsAheadOfRealData.set chain OrderedSet.empty }
  else manager

/-- `broadcast`. -/
def broadcast (manager : PlumtreeManager Chain DhtAddress) (msg : MessageID Chain)
    (previousNode : DhtAddress) : PlumtreeManager Chain DhtAddress :=
  let chain := msg.messageChainId
  let latest := (manager.latestMessages.get? chain).getD []
  let neighbors := manager.neighbors.getIds.filter (· ≠ previousNode)
  { manager with
    latestMessages := manager.latestMessages.set chain
      (if latest.length < latestMessagesLimit then latest ++ [msg] else latest.drop 1 ++ [msg])
    metadataTimestampsAheadOfRealData :=
      match manager.metadataTimestampsAheadOfRealData.get? chain with
      | some timestamps =>
        manager.metadataTimestampsAheadOfRealData.set chain (timestamps.delete msg.timestamp)
      | none => manager.metadataTimestampsAheadOfRealData
    scheduled := manager.scheduled ++ neighbors.map fun neighbor ↦
      if manager.localPausedNeighbors.isPaused neighbor chain then .sendMetadata neighbor msg
      else .sendStreamMessage neighbor msg }

/-- `ContentDeliveryRpcLocal.sendStreamMessage`; whether the message is new is what
`markAndCheckDuplicate` answers. -/
def sendStreamMessage (manager : PlumtreeManager Chain DhtAddress) (msg : MessageID Chain)
    (previousNode : DhtAddress) (isNew : Bool) :
    PlumtreeManager Chain DhtAddress × List (Sent Chain DhtAddress) :=
  if isNew then (manager.broadcast msg previousNode, [])
  else manager.pauseNeighbor previousNode msg.messageChainId

/-- `PlumtreeRpcLocal`: a notification arrives. -/
def receive (manager : PlumtreeManager Chain DhtAddress) (sender : DhtAddress) :
    Notification Chain → PlumtreeManager Chain DhtAddress × List (Sent Chain DhtAddress)
  | .pauseNeighbor chain =>
    if manager.neighbors.has sender then
      ({ manager with localPausedNeighbors := manager.localPausedNeighbors.add sender chain }, [])
    else (manager, [])
  | .resumeNeighbor fromTimestamp chain =>
    ({ manager with localPausedNeighbors := manager.localPausedNeighbors.delete sender chain },
      manager.sendBuffer fromTimestamp chain sender)
  | .sendMetadata msg => manager.onMetadata msg sender

/-- A callback of `setImmediate` runs. -/
def runImmediate (manager : PlumtreeManager Chain DhtAddress) :
    Immediate Chain DhtAddress →
      PlumtreeManager Chain DhtAddress × List (Sent Chain DhtAddress)
  | .resumeNeighbor node chain =>
    manager.resumeNeighbor node chain (manager.getLatestMessageTimestamp chain)
  | .sendMetadata node msg => (manager, [.notification node (.sendMetadata msg)])
  | .sendStreamMessage node msg => (manager, [.streamMessage node msg])

end PlumtreeManager

/-- What can happen at a node. -/
inductive Event (Chain DhtAddress : Type*)
  | sendStreamMessage (msg : MessageID Chain) (previousNode : DhtAddress) (isNew : Bool)
  | addNeighbor (nodeId : DhtAddress)
  | removeNeighbor (nodeId : DhtAddress)
  | receive (sender : DhtAddress) (notification : Notification Chain)
  | immediate
  | metadataHandled (call : ℕ)
  deriving DecidableEq

variable {Chain DhtAddress : Type*} [DecidableEq Chain] [DecidableEq DhtAddress]

/-- One step of a node, with what it sends. -/
def step (manager : PlumtreeManager Chain DhtAddress) : Event Chain DhtAddress →
    Option (PlumtreeManager Chain DhtAddress × List (Sent Chain DhtAddress))
  | .sendStreamMessage msg previousNode isNew =>
    some (manager.sendStreamMessage msg previousNode isNew)
  | .addNeighbor nodeId => some (manager.addNeighbor nodeId, [])
  | .removeNeighbor nodeId => some (manager.removeNeighbor nodeId, [])
  | .receive sender notification => some (manager.receive sender notification)
  | .immediate =>
    match manager.scheduled with
    | [] => none
    | first :: rest => some (PlumtreeManager.runImmediate { manager with scheduled := rest } first)
  | .metadataHandled call =>
    manager.awaiting[call]?.map fun chain ↦
      (PlumtreeManager.afterMetadata
        { manager with awaiting := manager.awaiting.eraseIdx call } chain, [])

/-- The manager after a step. -/
def advance (manager : PlumtreeManager Chain DhtAddress) (event : Event Chain DhtAddress) :
    Option (PlumtreeManager Chain DhtAddress) :=
  (step manager event).map Prod.fst

/-! ### A source for every chain -/

/-- A node with neighbours has, for each chain, one that it did not pause. -/
def KeepsSource (manager : PlumtreeManager Chain DhtAddress) : Prop :=
  manager.neighbors.getIds ≠ [] → ∀ chain, ∃ node ∈ manager.neighbors.getIds,
    manager.remotePausedNeighbors.isPaused node chain = false

/-- A duplicate that pauses its sender comes only while another neighbour is not paused for the
chain, or while the resume of a neighbour for the chain is scheduled. -/
def LeavesSource (manager : PlumtreeManager Chain DhtAddress) : Event Chain DhtAddress → Prop
  | .sendStreamMessage msg previousNode false =>
    manager.wouldPause previousNode msg.messageChainId →
      ∃ node ∈ manager.neighbors.getIds,
        (node ≠ previousNode ∧
          manager.remotePausedNeighbors.isPaused node msg.messageChainId = false) ∨
        Immediate.resumeNeighbor node msg.messageChainId ∈ manager.scheduled
  | _ => True

/-- The chain has a source, or a neighbour will be resumed for it. -/
def Sourced (manager : PlumtreeManager Chain DhtAddress) (chain : Chain) : Prop :=
  manager.neighbors.getIds ≠ [] → ∃ node ∈ manager.neighbors.getIds,
    manager.remotePausedNeighbors.isPaused node chain = false ∨
      Immediate.resumeNeighbor node chain ∈ manager.scheduled

/-- What holds of the paused neighbours in every run. -/
structure Invariant (manager : PlumtreeManager Chain DhtAddress) : Prop where
  /-- Only neighbours are paused. -/
  pausedIsNeighbor : ∀ node chain, manager.remotePausedNeighbors.isPaused node chain = true →
    node ∈ manager.neighbors.getIds
  limit_eq : manager.remotePausedNeighbors.limit = manager.maxPausedNeighbors

/-- A step that keeps the neighbours, pauses nothing and cancels no callback. -/
structure Relaxes (before after : PlumtreeManager Chain DhtAddress) : Prop where
  neighbors_eq : after.neighbors = before.neighbors
  max_eq : after.maxPausedNeighbors = before.maxPausedNeighbors
  limit_eq : after.remotePausedNeighbors.limit = before.remotePausedNeighbors.limit
  unpauses : ∀ node chain, after.remotePausedNeighbors.isPaused node chain = true →
    before.remotePausedNeighbors.isPaused node chain = true
  scheduled_subset : ∀ callback ∈ before.scheduled, callback ∈ after.scheduled

theorem Relaxes.refl (manager : PlumtreeManager Chain DhtAddress) : Relaxes manager manager :=
  ⟨rfl, rfl, rfl, fun _ _ ↦ id, fun _ ↦ id⟩

theorem Relaxes.trans {first second third : PlumtreeManager Chain DhtAddress}
    (hfirst : Relaxes first second) (hsecond : Relaxes second third) : Relaxes first third where
  neighbors_eq := hsecond.neighbors_eq.trans hfirst.neighbors_eq
  max_eq := hsecond.max_eq.trans hfirst.max_eq
  limit_eq := hsecond.limit_eq.trans hfirst.limit_eq
  unpauses := fun node chain hpaused ↦
    hfirst.unpauses node chain (hsecond.unpauses node chain hpaused)
  scheduled_subset := fun callback hmem ↦
    hsecond.scheduled_subset callback (hfirst.scheduled_subset callback hmem)

theorem Relaxes.sourced {before after : PlumtreeManager Chain DhtAddress}
    (hrelaxes : Relaxes before after) {chain : Chain} (hsourced : Sourced before chain) :
    Sourced after chain := by
  intro hne
  rw [hrelaxes.neighbors_eq] at hne ⊢
  obtain ⟨node, hnode, hor⟩ := hsourced hne
  refine ⟨node, hnode, hor.imp (fun hnot ↦ ?_) (hrelaxes.scheduled_subset _)⟩
  rw [Bool.eq_false_iff] at hnot ⊢
  exact fun hpaused ↦ hnot (hrelaxes.unpauses node chain hpaused)

/-- The spec of `resumeNeighbor`: nothing else than the pause of the node changes. -/
theorem resumeNeighbor_eq (manager : PlumtreeManager Chain DhtAddress) (node : DhtAddress)
    (chain : Chain) (fromTimestamp : ℤ) :
    (manager.resumeNeighbor node chain fromTimestamp).1 =
        { manager with
          remotePausedNeighbors :=
            (manager.resumeNeighbor node chain fromTimestamp).1.remotePausedNeighbors } ∧
      (manager.resumeNeighbor node chain fromTimestamp).1.remotePausedNeighbors.limit =
        manager.remotePausedNeighbors.limit ∧
      ∀ other otherChain,
        (manager.resumeNeighbor node chain fromTimestamp).1.remotePausedNeighbors.isPaused other
          otherChain = true ↔
        manager.remotePausedNeighbors.isPaused other otherChain = true ∧
          ¬(other = node ∧ otherChain = chain) := by
  unfold PlumtreeManager.resumeNeighbor
  split_ifs with hpaused
  · exact ⟨rfl, PausedNeighbors.limit_delete _ _ _, fun _ _ ↦ PausedNeighbors.isPaused_delete⟩
  · refine ⟨rfl, rfl, fun other otherChain ↦ ⟨fun hother ↦ ⟨hother, ?_⟩, And.left⟩⟩
    rintro ⟨rfl, rfl⟩
    exact hpaused hother

theorem relaxes_resumeNeighbor (manager : PlumtreeManager Chain DhtAddress) (node : DhtAddress)
    (chain : Chain) (fromTimestamp : ℤ) :
    Relaxes manager (manager.resumeNeighbor node chain fromTimestamp).1 := by
  obtain ⟨heq, hlimit, hpaused⟩ := resumeNeighbor_eq manager node chain fromTimestamp
  refine ⟨?_, ?_, hlimit, fun other otherChain hother ↦ ((hpaused _ _).mp hother).1, ?_⟩
  · rw [heq]
  · rw [heq]
  · rw [heq]
    exact fun _ ↦ id

theorem relaxes_onMetadata (manager : PlumtreeManager Chain DhtAddress) (msg : MessageID Chain)
    (previousNode : DhtAddress) : Relaxes manager (manager.onMetadata msg previousNode).1 := by
  unfold PlumtreeManager.onMetadata
  dsimp only
  split_ifs
  · refine Relaxes.trans ?_ (relaxes_resumeNeighbor _ _ _ _)
    exact ⟨rfl, rfl, rfl, fun _ _ ↦ id, fun _ ↦ id⟩
  · exact ⟨rfl, rfl, rfl, fun _ _ ↦ id, fun _ ↦ id⟩
  · exact Relaxes.refl manager

theorem relaxes_receive (manager : PlumtreeManager Chain DhtAddress) (sender : DhtAddress)
    (notification : Notification Chain) :
    Relaxes manager (manager.receive sender notification).1 := by
  cases notification with
  | pauseNeighbor chain =>
    simp only [PlumtreeManager.receive]
    split_ifs
    · exact ⟨rfl, rfl, rfl, fun _ _ ↦ id, fun _ ↦ id⟩
    · exact Relaxes.refl manager
  | resumeNeighbor fromTimestamp chain => exact ⟨rfl, rfl, rfl, fun _ _ ↦ id, fun _ ↦ id⟩
  | sendMetadata msg => exact relaxes_onMetadata manager msg sender

theorem relaxes_broadcast (manager : PlumtreeManager Chain DhtAddress) (msg : MessageID Chain)
    (previousNode : DhtAddress) : Relaxes manager (manager.broadcast msg previousNode) :=
  ⟨rfl, rfl, rfl, fun _ _ ↦ id, fun _ hmem ↦ List.mem_append_left _ hmem⟩

theorem relaxes_afterMetadata (manager : PlumtreeManager Chain DhtAddress) (call : ℕ)
    (chain : Chain) :
    Relaxes manager (PlumtreeManager.afterMetadata
      { manager with awaiting := manager.awaiting.eraseIdx call } chain) := by
  unfold PlumtreeManager.afterMetadata
  split_ifs <;> exact ⟨rfl, rfl, rfl, fun _ _ ↦ id, fun _ ↦ id⟩

theorem relaxes_runImmediate (manager : PlumtreeManager Chain DhtAddress)
    (callback : Immediate Chain DhtAddress) :
    Relaxes manager (manager.runImmediate callback).1 := by
  cases callback with
  | resumeNeighbor node chain => exact relaxes_resumeNeighbor manager node chain _
  | sendMetadata node msg => exact Relaxes.refl manager
  | sendStreamMessage node msg => exact Relaxes.refl manager

/-- What a step can do to the neighbours, the pauses and the callbacks. -/
theorem advance_cases {manager after : PlumtreeManager Chain DhtAddress}
    {event : Event Chain DhtAddress} (hstep : advance manager event = some after) :
    Relaxes manager after ∨
    (∃ msg previousNode, event = .sendStreamMessage msg previousNode false ∧
      manager.wouldPause previousNode msg.messageChainId = true ∧
      after = { manager with
        remotePausedNeighbors :=
          manager.remotePausedNeighbors.add previousNode msg.messageChainId }) ∨
    (∃ nodeId, event = .addNeighbor nodeId ∧ after = manager.addNeighbor nodeId) ∨
    (∃ nodeId, event = .removeNeighbor nodeId ∧ after = PlumtreeManager.onNeighborRemoved
      { manager with neighbors := manager.neighbors.remove nodeId } nodeId) ∨
    ∃ callback rest, event = .immediate ∧ manager.scheduled = callback :: rest ∧
      after = (PlumtreeManager.runImmediate { manager with scheduled := rest } callback).1 := by
  cases event with
  | sendStreamMessage msg previousNode isNew =>
    cases isNew with
    | true =>
      rw [advance, step, Option.map_some, Option.some.injEq] at hstep
      exact Or.inl (hstep ▸ relaxes_broadcast manager msg previousNode)
    | false =>
      rw [advance, step, Option.map_some, Option.some.injEq] at hstep
      by_cases hpause : manager.wouldPause previousNode msg.messageChainId = true
      · refine Or.inr (Or.inl ⟨msg, previousNode, rfl, hpause, ?_⟩)
        rw [← hstep, PlumtreeManager.sendStreamMessage, if_neg (by decide),
          PlumtreeManager.pauseNeighbor, if_pos hpause]
      · left
        rw [← hstep, PlumtreeManager.sendStreamMessage, if_neg (by decide),
          PlumtreeManager.pauseNeighbor, if_neg hpause]
        exact Relaxes.refl manager
  | addNeighbor nodeId =>
    rw [advance, step, Option.map_some, Option.some.injEq] at hstep
    exact Or.inr (Or.inr (Or.inl ⟨nodeId, rfl, hstep.symm⟩))
  | removeNeighbor nodeId =>
    rw [advance, step, Option.map_some, Option.some.injEq] at hstep
    dsimp only [PlumtreeManager.removeNeighbor] at hstep
    split_ifs at hstep
    · exact Or.inr (Or.inr (Or.inr (Or.inl ⟨nodeId, rfl, hstep.symm⟩)))
    · exact Or.inl (hstep ▸ Relaxes.refl manager)
  | receive sender notification =>
    rw [advance, step, Option.map_some, Option.some.injEq] at hstep
    exact Or.inl (hstep ▸ relaxes_receive manager sender notification)
  | immediate =>
    simp only [advance, step] at hstep
    split at hstep
    · cases hstep
    case _ callback rest hscheduled =>
      rw [Option.map_some, Option.some.injEq] at hstep
      exact Or.inr (Or.inr (Or.inr (Or.inr ⟨callback, rest, rfl, hscheduled, hstep.symm⟩)))
  | metadataHandled call =>
    simp only [advance, step, Option.map_map] at hstep
    obtain ⟨chain, -, rfl⟩ := Option.map_eq_some_iff.mp hstep
    exact Or.inl (relaxes_afterMetadata manager call chain)

/-- The neighbours and the pauses behind the removal of a neighbour. -/
theorem onNeighborRemoved_spec (manager : PlumtreeManager Chain DhtAddress) (nodeId : DhtAddress) :
    (manager.onNeighborRemoved nodeId).neighbors = manager.neighbors ∧
    (manager.onNeighborRemoved nodeId).maxPausedNeighbors = manager.maxPausedNeighbors ∧
    (manager.onNeighborRemoved nodeId).remotePausedNeighbors =
      manager.remotePausedNeighbors.deleteAll nodeId := by
  unfold PlumtreeManager.onNeighborRemoved
  dsimp only
  split_ifs <;> exact ⟨rfl, rfl, rfl⟩

theorem Invariant.of_relaxes {before after : PlumtreeManager Chain DhtAddress}
    (hinv : Invariant before) (hrelaxes : Relaxes before after) : Invariant after where
  pausedIsNeighbor := by
    intro node chain hpaused
    rw [hrelaxes.neighbors_eq]
    exact hinv.pausedIsNeighbor node chain (hrelaxes.unpauses node chain hpaused)
  limit_eq := by rw [hrelaxes.limit_eq, hrelaxes.max_eq, hinv.limit_eq]

theorem advance_invariant {manager after : PlumtreeManager Chain DhtAddress}
    {event : Event Chain DhtAddress} (hinv : Invariant manager)
    (hstep : advance manager event = some after) : Invariant after := by
  rcases advance_cases hstep with hrelaxes | ⟨msg, previousNode, -, hpause, rfl⟩ |
    ⟨nodeId, -, rfl⟩ | ⟨nodeId, -, rfl⟩ | ⟨callback, rest, -, -, rfl⟩
  · exact hinv.of_relaxes hrelaxes
  · refine ⟨fun node chain hpaused ↦ ?_, hinv.limit_eq⟩
    rcases PausedNeighbors.isPaused_add hpaused with hold | ⟨rfl, -⟩
    · exact hinv.pausedIsNeighbor node chain hold
    · rw [PlumtreeManager.wouldPause, Bool.and_eq_true, Bool.and_eq_true] at hpause
      exact NodeList.has_iff.mp hpause.1.1
  · refine ⟨fun node chain hpaused ↦ ?_, hinv.limit_eq⟩
    exact NodeList.mem_getIds_add_of_mem (hinv.pausedIsNeighbor node chain hpaused)
  · obtain ⟨hneighbors, hmax, hremote⟩ := onNeighborRemoved_spec
      { manager with neighbors := manager.neighbors.remove nodeId } nodeId
    refine ⟨fun node chain hpaused ↦ ?_, ?_⟩
    · rw [hremote, PausedNeighbors.isPaused_deleteAll] at hpaused
      rw [hneighbors, NodeList.mem_getIds_remove]
      exact ⟨hinv.pausedIsNeighbor node chain hpaused.1, hpaused.2⟩
    · rw [hremote, hmax, PausedNeighbors.limit_deleteAll]
      exact hinv.limit_eq
  · have hrest : Invariant { manager with scheduled := rest } :=
      ⟨hinv.pausedIsNeighbor, hinv.limit_eq⟩
    exact hrest.of_relaxes (relaxes_runImmediate _ callback)

/-- When all neighbours that are left are paused for a chain, the first is resumed for it. -/
theorem resume_scheduled_of_all_paused {manager : PlumtreeManager Chain DhtAddress}
    {nodeId : DhtAddress} {chain : Chain} (hne : manager.neighbors.getIds ≠ [])
    (hall : ∀ node ∈ manager.neighbors.getIds,
      (manager.remotePausedNeighbors.deleteAll nodeId).isPaused node chain = true) :
    ∃ node ∈ manager.neighbors.getIds,
      Immediate.resumeNeighbor node chain ∈ (manager.onNeighborRemoved nodeId).scheduled := by
  obtain ⟨first, rest, hids⟩ := List.exists_cons_of_ne_nil hne
  have hfirst : manager.neighbors.getFirst [] = some first := by
    rw [NodeList.getFirst, NodeList.included_nil, hids]
    rfl
  have hpos : 0 < manager.neighbors.size [] := by
    rw [NodeList.size_nil, hids]
    exact Nat.succ_pos _
  refine ⟨first, hids ▸ List.mem_cons_self, ?_⟩
  obtain ⟨set, hget, -⟩ := PausedNeighbors.isPaused_iff.mp (hall first (hids ▸ List.mem_cons_self))
  have hsub : manager.neighbors.getIds ⊆ set.elements := by
    intro node hnode
    obtain ⟨other, hother, hmem⟩ := PausedNeighbors.isPaused_iff.mp (hall node hnode)
    rw [hget, Option.some.injEq] at hother
    exact hother ▸ hmem
  have hsize : manager.neighbors.size [] ≤ set.elements.length := by
    rw [NodeList.size_nil]
    exact (List.subperm_of_subset manager.neighbors.nodes.nodup hsub).length_le
  unfold PlumtreeManager.onNeighborRemoved
  dsimp only
  rw [if_pos hpos]
  refine List.mem_append_right _ ?_
  unfold PlumtreeManager.resumesOfFirst
  dsimp only
  rw [hfirst]
  refine List.mem_map.mpr ⟨(chain, set), List.mem_filter.mpr ⟨?_, ?_⟩, rfl⟩
  · exact OrderedMap.get?_eq_some_iff.mp hget
  · rw [decide_eq_true_eq]
    exact hsize

/-- A step that leaves a source leaves every chain sourced. -/
theorem Sourced.advance {manager after : PlumtreeManager Chain DhtAddress}
    {event : Event Chain DhtAddress} (hinv : Invariant manager)
    (hsourced : ∀ chain, Sourced manager chain) (hleaves : LeavesSource manager event)
    (hstep : advance manager event = some after) (chain : Chain) : Sourced after chain := by
  rcases advance_cases hstep with hrelaxes | ⟨msg, previousNode, rfl, hpause, rfl⟩ |
    ⟨nodeId, -, rfl⟩ | ⟨nodeId, -, rfl⟩ | ⟨callback, rest, -, hscheduled, rfl⟩
  · exact hrelaxes.sourced (hsourced chain)
  · intro hne
    by_cases hchain : chain = msg.messageChainId
    · subst hchain
      obtain ⟨node, hnode, hor⟩ := hleaves hpause
      refine ⟨node, hnode, hor.imp_left fun ⟨hother, hnot⟩ ↦ ?_⟩
      rw [Bool.eq_false_iff] at hnot ⊢
      intro hpaused
      rcases PausedNeighbors.isPaused_add hpaused with hold | ⟨heq, -⟩
      · exact hnot hold
      · exact hother heq
    · obtain ⟨node, hnode, hor⟩ := hsourced chain hne
      refine ⟨node, hnode, hor.imp_left fun hnot ↦ ?_⟩
      rw [Bool.eq_false_iff] at hnot ⊢
      intro hpaused
      rcases PausedNeighbors.isPaused_add hpaused with hold | ⟨-, heq⟩
      · exact hnot hold
      · exact hchain heq
  · intro hne
    by_cases hbefore : manager.neighbors.getIds = []
    · obtain ⟨node, hnode⟩ := List.exists_mem_of_ne_nil _ hne
      refine ⟨node, hnode, Or.inl ?_⟩
      rw [Bool.eq_false_iff]
      intro hpaused
      have hmem := hinv.pausedIsNeighbor node chain hpaused
      rw [hbefore] at hmem
      exact List.not_mem_nil hmem
    · obtain ⟨node, hnode, hor⟩ := hsourced chain hbefore
      exact ⟨node, NodeList.mem_getIds_add_of_mem hnode, hor⟩
  · intro hne
    obtain ⟨hneighbors, -, hremote⟩ := onNeighborRemoved_spec
      { manager with neighbors := manager.neighbors.remove nodeId } nodeId
    rw [hneighbors] at hne ⊢
    by_cases hall : ∀ node ∈ (manager.neighbors.remove nodeId).getIds,
        (manager.remotePausedNeighbors.deleteAll nodeId).isPaused node chain = true
    · obtain ⟨node, hnode, hmem⟩ := resume_scheduled_of_all_paused hne hall
      exact ⟨node, hnode, Or.inr hmem⟩
    · simp only [not_forall] at hall
      obtain ⟨node, hnode, hnot⟩ := hall
      refine ⟨node, hnode, Or.inl ?_⟩
      rw [hremote, Bool.eq_false_iff]
      exact hnot
  · intro hne
    have hrelaxes := relaxes_runImmediate { manager with scheduled := rest } callback
    rw [hrelaxes.neighbors_eq] at hne ⊢
    obtain ⟨node, hnode, hor⟩ := hsourced chain hne
    refine ⟨node, hnode, ?_⟩
    rcases hor with hnot | hmem
    · left
      rw [Bool.eq_false_iff] at hnot ⊢
      exact fun hpaused ↦ hnot (hrelaxes.unpauses node chain hpaused)
    · rw [hscheduled, List.mem_cons] at hmem
      rcases hmem with rfl | hmem
      · -- The callback that the chain relied on has just run.
        left
        rw [Bool.eq_false_iff]
        intro hpaused
        exact (((resumeNeighbor_eq _ node chain _).2.2 node chain).mp hpaused).2 ⟨rfl, rfl⟩
      · exact Or.inr (hrelaxes.scheduled_subset _ hmem)

/-! ### The last source is paused -/

/-- All neighbours are paused for the chain, and none will be resumed. -/
def Starved (manager : PlumtreeManager Chain DhtAddress) (chain : Chain) : Prop :=
  manager.neighbors.getIds ≠ [] ∧ ∀ node ∈ manager.neighbors.getIds,
    manager.remotePausedNeighbors.isPaused node chain = true ∧
      Immediate.resumeNeighbor node chain ∉ manager.scheduled

/-- A duplicate that does not leave a source starves its chain. -/
theorem starved_of_not_leavesSource {manager after : PlumtreeManager Chain DhtAddress}
    {event : Event Chain DhtAddress} (hinv : Invariant manager)
    (hleaves : ¬LeavesSource manager event) (hstep : advance manager event = some after) :
    ∃ chain, Starved after chain := by
  match event, hleaves with
  | .sendStreamMessage msg previousNode false, hleaves =>
    simp only [LeavesSource, not_forall, not_exists, not_and, not_or] at hleaves
    obtain ⟨hpause, hnone⟩ := hleaves
    have hafter : after = { manager with
        remotePausedNeighbors :=
          manager.remotePausedNeighbors.add previousNode msg.messageChainId } := by
      rw [advance, step, Option.map_some, Option.some.injEq, PlumtreeManager.sendStreamMessage,
        if_neg (by decide), PlumtreeManager.pauseNeighbor, if_pos hpause] at hstep
      exact hstep.symm
    rw [PlumtreeManager.wouldPause, Bool.and_eq_true, Bool.and_eq_true, decide_eq_true_eq,
      ← hinv.limit_eq] at hpause
    have hmem := NodeList.has_iff.mp hpause.1.1
    refine ⟨msg.messageChainId, ?_⟩
    rw [hafter]
    refine ⟨List.ne_nil_of_mem hmem, fun node hnode ↦ ⟨?_, (hnone node hnode).2⟩⟩
    by_cases heq : node = previousNode
    · rw [heq]
      exact PausedNeighbors.isPaused_add_self hpause.2
    · have hpaused := (hnone node hnode).1 heq
      rw [Bool.not_eq_false] at hpaused
      exact PausedNeighbors.isPaused_add_of_isPaused hpaused
  | .sendStreamMessage _ _ true, hleaves => exact absurd trivial hleaves
  | .addNeighbor _, hleaves => exact absurd trivial hleaves
  | .removeNeighbor _, hleaves => exact absurd trivial hleaves
  | .receive _ _, hleaves => exact absurd trivial hleaves
  | .immediate, hleaves => exact absurd trivial hleaves
  | .metadataHandled _, hleaves => exact absurd trivial hleaves

/-- A callback does not feed a starved chain. -/
theorem Starved.runImmediate {manager : PlumtreeManager Chain DhtAddress} {chain : Chain}
    {callback : Immediate Chain DhtAddress} {rest : List (Immediate Chain DhtAddress)}
    (hstarved : Starved manager chain) (hscheduled : manager.scheduled = callback :: rest) :
    Starved (PlumtreeManager.runImmediate { manager with scheduled := rest } callback).1 chain ∧
      (PlumtreeManager.runImmediate { manager with scheduled := rest } callback).1.scheduled =
        rest := by
  have hrest : Starved { manager with scheduled := rest } chain := by
    refine ⟨hstarved.1, fun node hnode ↦ ⟨(hstarved.2 node hnode).1, fun hmem ↦ ?_⟩⟩
    refine (hstarved.2 node hnode).2 ?_
    rw [hscheduled]
    exact List.mem_cons_of_mem callback hmem
  cases callback with
  | resumeNeighbor node other =>
    obtain ⟨heq, -, hpaused⟩ := resumeNeighbor_eq { manager with scheduled := rest } node other
      (PlumtreeManager.getLatestMessageTimestamp { manager with scheduled := rest } other)
    rw [PlumtreeManager.runImmediate]
    refine ⟨?_, by rw [heq]⟩
    rw [heq]
    refine ⟨hrest.1, fun neighbor hneighbor ↦ ⟨?_, (hrest.2 neighbor hneighbor).2⟩⟩
    refine (hpaused neighbor chain).mpr ⟨(hrest.2 neighbor hneighbor).1, ?_⟩
    rintro ⟨rfl, rfl⟩
    refine (hstarved.2 neighbor hneighbor).2 ?_
    rw [hscheduled]
    exact List.mem_cons_self
  | sendMetadata node msg => exact ⟨hrest, rfl⟩
  | sendStreamMessage node msg => exact ⟨hrest, rfl⟩

/-- A chain that is starved still is when all callbacks have run. -/
theorem Starved.run_scheduled {chain : Chain} (scheduled : List (Immediate Chain DhtAddress)) :
    ∀ manager : PlumtreeManager Chain DhtAddress, manager.scheduled = scheduled →
      Starved manager chain →
      ∃ final, Transition.run advance manager (List.replicate scheduled.length .immediate) =
          some final ∧ final.scheduled = [] ∧ Starved final chain := by
  induction scheduled with
  | nil => exact fun manager hscheduled hstarved ↦ ⟨manager, rfl, hscheduled, hstarved⟩
  | cons callback rest ih =>
    intro manager hscheduled hstarved
    obtain ⟨hnext, hrest⟩ := hstarved.runImmediate hscheduled
    obtain ⟨final, hrun, hempty, hfinal⟩ := ih _ hrest hnext
    refine ⟨final, ?_, hempty, hfinal⟩
    have hstep : advance manager .immediate = some
        (PlumtreeManager.runImmediate { manager with scheduled := rest } callback).1 := by
      simp only [advance, step, hscheduled, Option.map_some]
    rw [List.length_cons, List.replicate_succ, Transition.run, hstep, Option.bind_some]
    exact hrun

theorem Starved.not_keepsSource {manager : PlumtreeManager Chain DhtAddress} {chain : Chain}
    (hstarved : Starved manager chain) : ¬KeepsSource manager := by
  intro hkeeps
  obtain ⟨node, hnode, hnot⟩ := hkeeps hstarved.1 chain
  rw [(hstarved.2 node hnode).1] at hnot
  cases hnot

/-! ### The main result -/

theorem invariant_create (ownId : DhtAddress) (limit maxPausedNeighbors : ℕ) :
    Invariant (PlumtreeManager.create ownId limit maxPausedNeighbors :
      PlumtreeManager Chain DhtAddress) :=
  ⟨fun _ _ hpaused ↦ absurd hpaused Bool.false_ne_true, rfl⟩

/-- The invariant holds in every state of every run, with any guard on its steps. -/
theorem invariant_of_reachable {ownId : DhtAddress} {limit maxPausedNeighbors : ℕ}
    {guard : PlumtreeManager Chain DhtAddress → Event Chain DhtAddress → Prop}
    {manager : PlumtreeManager Chain DhtAddress}
    (hreachable : Transition.Reachable advance guard
      (· = PlumtreeManager.create ownId limit maxPausedNeighbors) manager) :
    Invariant manager := by
  refine hreachable.invariant ?_ ?_
  · rintro manager rfl
    exact invariant_create ownId limit maxPausedNeighbors
  · intro manager event after _ hinv _ hstep
    exact advance_invariant hinv hstep

/-- Assumes: a run in which every duplicate leaves a source. In each of its states without an
outstanding callback, a node with neighbours has a neighbour that is not paused, for every chain.
A duplicate that does not leave a source ends in a state without outstanding callbacks in which all
neighbours are paused for its chain. -/
theorem keeps_source_of_leavesSource (ownId : DhtAddress) (limit maxPausedNeighbors : ℕ)
    (manager : PlumtreeManager Chain DhtAddress)
    (hreachable : Transition.Reachable advance LeavesSource
      (· = PlumtreeManager.create ownId limit maxPausedNeighbors) manager) :
    (manager.scheduled = [] → KeepsSource manager) ∧
    ∀ event after, advance manager event = some after → ¬LeavesSource manager event →
      ∃ final, Transition.run advance after (List.replicate after.scheduled.length .immediate) =
        some final ∧ final.scheduled = [] ∧ ¬KeepsSource final := by
  constructor
  · have hsourced : ∀ chain, Sourced manager chain := by
      refine Transition.Reachable.invariant
        (?_ : ∀ manager, _ → ∀ chain, Sourced manager chain) ?_ hreachable
      · rintro manager rfl chain hne
        exact absurd rfl hne
      · intro manager event after hbefore hsourced hleaves hstep
        exact Sourced.advance (invariant_of_reachable hbefore) hsourced hleaves hstep
    intro hscheduled hne chain
    obtain ⟨node, hnode, hnot | hmem⟩ := hsourced chain hne
    · exact ⟨node, hnode, hnot⟩
    · rw [hscheduled] at hmem
      exact absurd hmem List.not_mem_nil
  · intro event after hstep hleaves
    obtain ⟨chain, hstarved⟩ :=
      starved_of_not_leavesSource (invariant_of_reachable hreachable) hleaves hstep
    obtain ⟨final, hrun, hempty, hfinal⟩ := Starved.run_scheduled after.scheduled after rfl hstarved
    exact ⟨final, hrun, hempty, hfinal.not_keepsSource⟩

/-- `LeavesSource`, evaluated. -/
def leavesSource? (manager : PlumtreeManager Chain DhtAddress) : Event Chain DhtAddress → Bool
  | .sendStreamMessage msg previousNode false =>
    !manager.wouldPause previousNode msg.messageChainId ||
      manager.neighbors.getIds.any fun node ↦
        decide (node ≠ previousNode) &&
          !manager.remotePausedNeighbors.isPaused node msg.messageChainId ||
        decide (Immediate.resumeNeighbor node msg.messageChainId ∈ manager.scheduled)
  | _ => true

theorem leavesSource_of_eval (manager : PlumtreeManager Chain DhtAddress)
    (event : Event Chain DhtAddress) (heval : leavesSource? manager event = true) :
    LeavesSource manager event := by
  match event, heval with
  | .sendStreamMessage msg previousNode false, heval =>
    intro hpause
    rw [leavesSource?, hpause, Bool.not_true, Bool.false_or, List.any_eq_true] at heval
    obtain ⟨node, hnode, hor⟩ := heval
    exact ⟨node, hnode, by simpa using hor⟩
  | .sendStreamMessage _ _ true, _ => trivial
  | .addNeighbor _, _ => trivial
  | .removeNeighbor _, _ => trivial
  | .receive _ _, _ => trivial
  | .immediate, _ => trivial
  | .metadataHandled _, _ => trivial

/-- Three neighbours; duplicates pause two of them, and the third leaves. The first neighbour is
resumed by a callback, and is a source when it has run. -/
theorem source_after_removal :
    ∃ manager : PlumtreeManager ℕ ℕ,
      Transition.Reachable advance LeavesSource
        (· = PlumtreeManager.create 0 4 maxPausedNeighborsDefault) manager ∧
      manager.neighbors.getIds = [1, 2] ∧ manager.remotePausedNeighbors.isPaused 2 7 = true ∧
      KeepsSource manager := by
  have hrun : (Transition.checkedRun advance leavesSource?
      (PlumtreeManager.create 0 4 maxPausedNeighborsDefault : PlumtreeManager ℕ ℕ)
      [.addNeighbor 1, .addNeighbor 2, .addNeighbor 3, .sendStreamMessage ⟨7, 10⟩ 1 false,
        .sendStreamMessage ⟨7, 10⟩ 2 false, .removeNeighbor 3, .immediate]).map
        (fun manager ↦ (manager.neighbors.getIds, manager.remotePausedNeighbors.isPaused 2 7,
          manager.scheduled)) = some ([1, 2], true, []) := by
    decide +kernel
  obtain ⟨manager, hmanager, hfacts⟩ := Option.map_eq_some_iff.mp hrun
  simp only [Prod.mk.injEq] at hfacts
  have hreachable : Transition.Reachable advance LeavesSource
      (· = PlumtreeManager.create 0 4 maxPausedNeighborsDefault) manager :=
    .of_checkedRun _ leavesSource_of_eval (.start rfl) hmanager
  exact ⟨manager, hreachable, hfacts.1, hfacts.2.1,
    (keeps_source_of_leavesSource 0 4 maxPausedNeighborsDefault manager hreachable).1 hfacts.2.2⟩

/-- A node with one neighbour gets a message from it twice: it pauses its only source. -/
theorem only_neighbor_paused :
    ∃ manager : PlumtreeManager ℕ ℕ,
      Transition.Reachable advance (fun _ _ ↦ True)
        (· = PlumtreeManager.create 0 4 maxPausedNeighborsDefault) manager ∧
      manager.scheduled = [] ∧ ¬KeepsSource manager := by
  have hrun : (Transition.run advance
      (PlumtreeManager.create 0 4 maxPausedNeighborsDefault : PlumtreeManager ℕ ℕ)
      [.addNeighbor 1, .sendStreamMessage ⟨7, 10⟩ 1 true,
        .sendStreamMessage ⟨7, 10⟩ 1 false]).map
        (fun manager ↦ (manager.neighbors.getIds, manager.remotePausedNeighbors.isPaused 1 7,
          manager.scheduled)) = some ([1], true, []) := by
    decide +kernel
  obtain ⟨manager, hmanager, hfacts⟩ := Option.map_eq_some_iff.mp hrun
  simp only [Prod.mk.injEq] at hfacts
  have hreachable : Transition.Reachable advance (fun _ _ ↦ True)
      (· = PlumtreeManager.create 0 4 maxPausedNeighborsDefault) manager :=
    .of_run _ (fun _ _ _ ↦ trivial) (.start rfl) hmanager
  refine ⟨manager, hreachable, hfacts.2.2, fun hkeeps ↦ ?_⟩
  rw [KeepsSource, hfacts.1] at hkeeps
  obtain ⟨node, hnode, hnot⟩ := hkeeps (List.cons_ne_nil 1 []) 7
  rw [List.mem_singleton.mp hnode, hfacts.2.1] at hnot
  cases hnot

end PomboStorageNode.TrackerlessNetwork.Plumtree
