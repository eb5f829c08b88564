import Mathlib.Data.List.Perm.Subperm
import Mathlib.Logic.Function.Basic
import PomboStorageNode.Library.Transition
import PomboStorageNode.TrackerlessNetwork.NodeList

/-!
# Neighbour updates

`NeighborUpdateManager.ts`, `NeighborUpdateRpcLocal.ts` and `NeighborUpdateRpcRemote.ts`. In a round
a node sends its list of neighbours to each of them; a neighbour that has more than
`neighborTargetCount` neighbours and reads that the sender has too removes the sender and asks to be
removed. Updates and answers are in flight for any time and in any order, and nodes get new
neighbours at any time, as the handshaker adds them.

A receiver decides by the list in the update, and does not see that other receivers of the same
round decide the same (`round_cuts_below_target`). `settled` are the neighbours of a node that have
not asked to be removed; `target_kept` holds in the runs in which every update that ends in a
removal leaves both of its nodes enough of those.
-/

set_option autoImplicit false

namespace PomboStorageNode.TrackerlessNetwork.NeighborUpdates

open Library

/-! ### One node -/

/-- `NeighborUpdate`, as a request and as a response. -/
structure NeighborUpdate (DhtAddress : Type*) where
  neighborDescriptors : List DhtAddress
  removeMe : Bool

/-- What `NeighborUpdateManager` and `NeighborUpdateRpcLocal` share. -/
structure Node (DhtAddress : Type*) where
  neighbors : NodeList DhtAddress
  nearbyNodeView : NodeList DhtAddress
  ongoingHandshakes : OrderedSet DhtAddress

variable {DhtAddress : Type*} [DecidableEq DhtAddress]

namespace Node

/-- The number of neighbours. -/
def neighborCount (node : Node DhtAddress) : ℕ := node.neighbors.size []

/-- `updateContacts`. -/
def updateContacts (node : Node DhtAddress) (neighborDescriptors : List DhtAddress) :
    Node DhtAddress :=
  let newPeerDescriptors := neighborDescriptors.filter fun nodeId ↦
    nodeId ≠ node.neighbors.ownId ∧ nodeId ∉ node.neighbors.getIds
  { node with nearbyNodeView := newPeerDescriptors.foldl NodeList.add node.nearbyNodeView }

omit [DecidableEq DhtAddress] in
/-- `createResponse`. -/
def createResponse (node : Node DhtAddress) (removeMe : Bool) : NeighborUpdate DhtAddress :=
  ⟨node.neighbors.getIds, removeMe⟩

/-- `isOverNeighborCount`. -/
def isOverNeighborCount (neighborTargetCount : ℕ) (node : Node DhtAddress)
    (message : NeighborUpdate DhtAddress) : Bool :=
  node.neighbors.size [] > neighborTargetCount &&
    message.neighborDescriptors.length > neighborTargetCount

/-- `neighborUpdate`: the node after it and its response. `neighborFinder.start` leads to new
neighbours only, which may come at any time. -/
def neighborUpdate (neighborTargetCount : ℕ) (node : Node DhtAddress)
    (message : NeighborUpdate DhtAddress) (remoteNodeId : DhtAddress) :
    Node DhtAddress × NeighborUpdate DhtAddress :=
  let updated := node.updateContacts message.neighborDescriptors
  if !updated.neighbors.has remoteNodeId && remoteNodeId ∉ updated.ongoingHandshakes then
    (updated, updated.createResponse true)
  else if updated.isOverNeighborCount neighborTargetCount message then
    let cut := { updated with neighbors := updated.neighbors.remove remoteNodeId }
    (cut, cut.createResponse true)
  else (updated, updated.createResponse false)

/-- Whether an update ends in a removal: its sender is not known, or both nodes are over. -/
def endsInRemoval (neighborTargetCount : ℕ) (node : Node DhtAddress)
    (message : NeighborUpdate DhtAddress) (remoteNodeId : DhtAddress) : Bool :=
  (!node.neighbors.has remoteNodeId && remoteNodeId ∉ node.ongoingHandshakes) ||
    node.isOverNeighborCount neighborTargetCount message

/-- What a round does with the answer of a neighbour. Without that neighbour `setRtt` throws, which
`Promise.allSettled` swallows. -/
def onAnswer (node : Node DhtAddress) (nodeId : DhtAddress) (removeMe : Bool) : Node DhtAddress :=
  if node.neighbors.has nodeId then
    if removeMe then { node with neighbors := node.neighbors.remove nodeId } else node
  else node

/-- The response asks for the removal when the update ends in one. -/
theorem removeMe_neighborUpdate (neighborTargetCount : ℕ) (node : Node DhtAddress)
    (message : NeighborUpdate DhtAddress) (remoteNodeId : DhtAddress) :
    (node.neighborUpdate neighborTargetCount message remoteNodeId).2.removeMe =
      node.endsInRemoval neighborTargetCount message remoteNodeId := by
  have hover : (node.updateContacts message.neighborDescriptors).isOverNeighborCount
      neighborTargetCount message = node.isOverNeighborCount neighborTargetCount message := rfl
  simp only [neighborUpdate, endsInRemoval, hover]
  split_ifs with hunknown hboth
  · have hbefore : (!node.neighbors.has remoteNodeId &&
        decide (remoteNodeId ∉ node.ongoingHandshakes)) = true := hunknown
    rw [hbefore]
    rfl
  · rw [hboth, Bool.or_true]
    rfl
  · have hknown : (!node.neighbors.has remoteNodeId &&
        decide (remoteNodeId ∉ node.ongoingHandshakes)) = false := Bool.eq_false_iff.mpr hunknown
    rw [hknown, Bool.eq_false_iff.mpr hboth]
    rfl

/-- What `neighborUpdate` can do to the neighbours: it removes nobody and does not ask for it, it
does not know the sender, or both nodes have too many neighbours and it removes the sender. -/
theorem neighborUpdate_cases (neighborTargetCount : ℕ) (node : Node DhtAddress)
    (message : NeighborUpdate DhtAddress) (remoteNodeId : DhtAddress) :
    let handled := node.neighborUpdate neighborTargetCount message remoteNodeId
    (handled.2.removeMe = false ∧ handled.1.neighbors = node.neighbors) ∨
    (handled.2.removeMe = true ∧ node.neighbors.has remoteNodeId = false ∧
      handled.1.neighbors = node.neighbors) ∨
    (handled.2.removeMe = true ∧ neighborTargetCount < node.neighborCount ∧
      neighborTargetCount < message.neighborDescriptors.length ∧
      handled.1.neighbors = node.neighbors.remove remoteNodeId) := by
  intro handled
  simp only [handled, neighborUpdate]
  split_ifs with hunknown hover
  · rw [Bool.and_eq_true, Bool.not_eq_true'] at hunknown
    exact Or.inr (Or.inl ⟨rfl, hunknown.1, rfl⟩)
  · rw [isOverNeighborCount, Bool.and_eq_true, decide_eq_true_eq, decide_eq_true_eq] at hover
    exact Or.inr (Or.inr ⟨rfl, hover.1, hover.2, rfl⟩)
  · exact Or.inl ⟨rfl, rfl⟩

end Node

/-! ### The network -/

/-- An update or an answer in flight. -/
structure Envelope (DhtAddress : Type*) where
  sender : DhtAddress
  receiver : DhtAddress
  message : NeighborUpdate DhtAddress

/-- The nodes, what is in flight between them, and which pairs of nodes have had each other as
neighbours. -/
structure Network (DhtAddress : Type*) where
  node : DhtAddress → Node DhtAddress
  updates : List (Envelope DhtAddress)
  answers : List (Envelope DhtAddress)
  met : DhtAddress → DhtAddress → Bool

/-- What can happen. -/
inductive Event (DhtAddress : Type*)
  | round (nodeId : DhtAddress)
  | handled (index : ℕ)
  | answered (index : ℕ)
  | failed (index : ℕ)
  | unanswered (index : ℕ)
  | addNeighbor (nodeId neighbor : DhtAddress)
  | handshakeStarted (nodeId remoteNodeId : DhtAddress)
  | handshakeEnded (nodeId remoteNodeId : DhtAddress)

namespace Network

/-- A network of nodes without neighbours. -/
def create (limit : DhtAddress → ℕ) : Network DhtAddress where
  node := fun nodeId ↦ ⟨NodeList.create nodeId (limit nodeId),
    NodeList.create nodeId (limit nodeId), OrderedSet.empty⟩
  updates := []
  answers := []
  met := fun _ _ ↦ false

/-- The neighbours of a node. -/
def neighborsOf (network : Network DhtAddress) (nodeId : DhtAddress) : List DhtAddress :=
  (network.node nodeId).neighbors.getIds

/-- Whether two nodes have each other as neighbours. -/
def areNeighbors (network : Network DhtAddress) (first second : DhtAddress) : Bool :=
  second ∈ network.neighborsOf first && first ∈ network.neighborsOf second

/-- A change of one node. -/
def setNode (network : Network DhtAddress) (nodeId : DhtAddress) (node : Node DhtAddress) :
    Network DhtAddress :=
  { network with node := Function.update network.node nodeId node }

/-- `updateNeighborInfo` up to the answers: one update for each neighbour, all with one list. -/
def updateNeighborInfo (network : Network DhtAddress) (nodeId : DhtAddress) :
    Network DhtAddress :=
  let neighborDescriptors := network.neighborsOf nodeId
  { network with
    updates := network.updates ++ (network.neighborsOf nodeId).map fun neighbor ↦
      ⟨nodeId, neighbor, ⟨neighborDescriptors, false⟩⟩ }

/-- The receiver of an update handles it. -/
def handle (neighborTargetCount : ℕ) (network : Network DhtAddress)
    (update : Envelope DhtAddress) : Network DhtAddress :=
  let handled := (network.node update.receiver).neighborUpdate neighborTargetCount update.message
    update.sender
  { network.setNode update.receiver handled.1 with
    answers := network.answers ++ [⟨update.receiver, update.sender, handled.2⟩] }

/-- The end of an update at its sender. -/
def settle (network : Network DhtAddress) (nodeId neighbor : DhtAddress) (removeMe : Bool) :
    Network DhtAddress :=
  network.setNode nodeId ((network.node nodeId).onAnswer neighbor removeMe)

/-- A node adds a neighbour. -/
def addNeighbor (network : Network DhtAddress) (nodeId neighbor : DhtAddress) :
    Network DhtAddress :=
  let node := network.node nodeId
  let added := network.setNode nodeId { node with neighbors := node.neighbors.add neighbor }
  { added with met := fun first second ↦ added.met first second || added.areNeighbors first second }

/-- A change of the ongoing handshakes of a node. -/
def setHandshakes (network : Network DhtAddress) (nodeId : DhtAddress)
    (handshakes : OrderedSet DhtAddress) : Network DhtAddress :=
  network.setNode nodeId { network.node nodeId with ongoingHandshakes := handshakes }

/-- One step. `updateNeighbors` takes a failed request for an answer that asks for the removal. -/
def step (neighborTargetCount : ℕ) (network : Network DhtAddress) :
    Event DhtAddress → Option (Network DhtAddress)
  | .round nodeId => some (network.updateNeighborInfo nodeId)
  | .handled index =>
    network.updates[index]?.map fun update ↦
      { network with updates := network.updates.eraseIdx index }.handle neighborTargetCount update
  | .answered index =>
    network.answers[index]?.map fun answer ↦
      { network with answers := network.answers.eraseIdx index }.settle answer.receiver
        answer.sender answer.message.removeMe
  | .failed index =>
    network.updates[index]?.map fun update ↦
      { network with updates := network.updates.eraseIdx index }.settle update.sender
        update.receiver true
  | .unanswered index =>
    network.answers[index]?.map fun answer ↦
      { network with answers := network.answers.eraseIdx index }.settle answer.receiver
        answer.sender true
  | .addNeighbor nodeId neighbor => some (network.addNeighbor nodeId neighbor)
  | .handshakeStarted nodeId remoteNodeId =>
    some (network.setHandshakes nodeId
      ((network.node nodeId).ongoingHandshakes.add remoteNodeId))
  | .handshakeEnded nodeId remoteNodeId =>
    some (network.setHandshakes nodeId
      ((network.node nodeId).ongoingHandshakes.delete remoteNodeId))

/-! ### The target and the condition -/

/-- Whether an update in flight would end in a removal. -/
def asksRemoval (neighborTargetCount : ℕ) (network : Network DhtAddress)
    (update : Envelope DhtAddress) : Bool :=
  (network.node update.receiver).endsInRemoval neighborTargetCount update.message update.sender

/-- Removals come from answered updates between nodes that have had each other as neighbours. -/
def RemovesMutual (neighborTargetCount : ℕ) (network : Network DhtAddress) :
    Event DhtAddress → Prop
  | .handled index => ∀ update ∈ network.updates[index]?,
      network.asksRemoval neighborTargetCount update = true →
        network.met update.sender update.receiver = true
  | .failed _ => False
  | .unanswered _ => False
  | _ => True

/-- An answer in flight to a node makes it remove a neighbour. -/
def hasRemoval (network : Network DhtAddress) (nodeId neighbor : DhtAddress) : Bool :=
  network.answers.any fun answer ↦
    answer.receiver = nodeId && answer.sender = neighbor && answer.message.removeMe

/-- The neighbours of a node without such an answer. -/
def settled (network : Network DhtAddress) (nodeId : DhtAddress) : List DhtAddress :=
  (network.neighborsOf nodeId).filter fun neighbor ↦ !network.hasRemoval nodeId neighbor

/-- Whether an answer in flight to a node makes it remove someone. -/
def awaitsRemoval (network : Network DhtAddress) (nodeId : DhtAddress) : Bool :=
  network.answers.any fun answer ↦ answer.receiver = nodeId && answer.message.removeMe

/-- The number of settled neighbours of a node other than a given one. -/
def settledBeside (network : Network DhtAddress) (nodeId neighbor : DhtAddress) : ℕ :=
  ((network.settled nodeId).filter (· ≠ neighbor)).length

/-- An update is answered with a removal only when the sender keeps enough settled neighbours
without the receiver, and so does a receiver that removes the sender while other removals are in
flight to it. -/
def LeavesEnough (neighborTargetCount : ℕ) (network : Network DhtAddress) :
    Event DhtAddress → Prop
  | .handled index => ∀ update ∈ network.updates[index]?,
      network.asksRemoval neighborTargetCount update = true →
        neighborTargetCount ≤ network.settledBeside update.sender update.receiver ∧
        (update.sender ∈ network.neighborsOf update.receiver →
          network.awaitsRemoval update.receiver = true →
          neighborTargetCount ≤ network.settledBeside update.receiver update.sender)
  | _ => True

instance (neighborTargetCount : ℕ) (network : Network DhtAddress) (event : Event DhtAddress) :
    Decidable (network.RemovesMutual neighborTargetCount event) :=
  match event with
  | .handled index => inferInstanceAs (Decidable (∀ update ∈ network.updates[index]?,
      network.asksRemoval neighborTargetCount update = true →
        network.met update.sender update.receiver = true))
  | .failed _ | .unanswered _ => isFalse id
  | .round _ | .answered _ | .addNeighbor _ _ | .handshakeStarted _ _ | .handshakeEnded _ _ =>
    isTrue trivial

instance (neighborTargetCount : ℕ) (network : Network DhtAddress) (event : Event DhtAddress) :
    Decidable (network.LeavesEnough neighborTargetCount event) :=
  match event with
  | .handled index => inferInstanceAs (Decidable (∀ update ∈ network.updates[index]?,
      network.asksRemoval neighborTargetCount update = true →
        neighborTargetCount ≤ network.settledBeside update.sender update.receiver ∧
        (update.sender ∈ network.neighborsOf update.receiver →
          network.awaitsRemoval update.receiver = true →
          neighborTargetCount ≤ network.settledBeside update.receiver update.sender)))
  | .failed _ | .unanswered _ | .round _ | .answered _ | .addNeighbor _ _
  | .handshakeStarted _ _ | .handshakeEnded _ _ => isTrue trivial

/-! ### What the operations do -/

omit [DecidableEq DhtAddress] in
theorem nodup_neighborsOf (network : Network DhtAddress) (nodeId : DhtAddress) :
    (network.neighborsOf nodeId).Nodup := (network.node nodeId).neighbors.nodes.nodup

theorem areNeighbors_iff {network : Network DhtAddress} {first second : DhtAddress} :
    network.areNeighbors first second = true ↔
      second ∈ network.neighborsOf first ∧ first ∈ network.neighborsOf second := by
  rw [areNeighbors, Bool.and_eq_true, decide_eq_true_eq, decide_eq_true_eq]

theorem hasRemoval_iff {network : Network DhtAddress} {nodeId neighbor : DhtAddress} :
    network.hasRemoval nodeId neighbor = true ↔ ∃ answer ∈ network.answers,
      answer.receiver = nodeId ∧ answer.sender = neighbor ∧ answer.message.removeMe = true := by
  simp [hasRemoval, and_assoc]

theorem awaitsRemoval_of_hasRemoval {network : Network DhtAddress} {nodeId neighbor : DhtAddress}
    (hremoval : network.hasRemoval nodeId neighbor = true) :
    network.awaitsRemoval nodeId = true := by
  obtain ⟨answer, hmem, hreceiver, -, hremove⟩ := hasRemoval_iff.mp hremoval
  refine List.any_eq_true.mpr ⟨answer, hmem, ?_⟩
  rw [Bool.and_eq_true, decide_eq_true_eq]
  exact ⟨hreceiver, hremove⟩

theorem mem_settled {network : Network DhtAddress} {nodeId neighbor : DhtAddress} :
    neighbor ∈ network.settled nodeId ↔
      neighbor ∈ network.neighborsOf nodeId ∧ network.hasRemoval nodeId neighbor = false := by
  simp [settled]

/-- A node with the settled neighbours of another state has as many of them. -/
theorem le_settled_of_subset {network after : Network DhtAddress} {nodeId : DhtAddress} {bound : ℕ}
    (hbound : bound ≤ (network.settled nodeId).length)
    (hsub : ∀ neighbor ∈ network.settled nodeId, neighbor ∈ after.settled nodeId) :
    bound ≤ (after.settled nodeId).length :=
  Nat.le_trans hbound
    (List.subperm_of_subset ((network.nodup_neighborsOf nodeId).filter _) hsub).length_le

/-- The same with one neighbour left out. -/
theorem le_settled_of_subset_beside {network after : Network DhtAddress}
    {nodeId other : DhtAddress} {bound : ℕ} (hbound : bound ≤ network.settledBeside nodeId other)
    (hsub : ∀ neighbor ∈ network.settled nodeId, neighbor ≠ other →
      neighbor ∈ after.settled nodeId) :
    bound ≤ (after.settled nodeId).length := by
  refine Nat.le_trans hbound (List.subperm_of_subset
    (((network.nodup_neighborsOf nodeId).filter _).filter _) fun neighbor hmem ↦ ?_).length_le
  rw [List.mem_filter, decide_eq_true_eq] at hmem
  exact hsub neighbor hmem.1 hmem.2

theorem neighborsOf_setNode (network : Network DhtAddress) (nodeId : DhtAddress)
    (node : Node DhtAddress) (other : DhtAddress) :
    (network.setNode nodeId node).neighborsOf other =
      if other = nodeId then node.neighbors.getIds else network.neighborsOf other := by
  rw [neighborsOf, neighborsOf, setNode]
  dsimp only
  rw [Function.update_apply]
  split_ifs <;> rfl

theorem neighborsOf_setHandshakes (network : Network DhtAddress) (nodeId : DhtAddress)
    (handshakes : OrderedSet DhtAddress) (other : DhtAddress) :
    (network.setHandshakes nodeId handshakes).neighborsOf other = network.neighborsOf other := by
  rw [setHandshakes, neighborsOf_setNode]
  split_ifs with hother
  · rw [hother, neighborsOf]
  · rfl

/-- After an answer its receiver has the neighbours that it had, without the sender if the answer
asks for that. -/
theorem mem_neighborsOf_settle {network : Network DhtAddress}
    {nodeId neighbor other member : DhtAddress} {removeMe : Bool} :
    member ∈ (network.settle nodeId neighbor removeMe).neighborsOf other ↔
      member ∈ network.neighborsOf other ∧
        ¬(removeMe = true ∧ other = nodeId ∧ member = neighbor) := by
  rw [settle, neighborsOf_setNode]
  split_ifs with hother
  · subst hother
    rw [Node.onAnswer]
    split_ifs with hhas hremove
    · rw [NodeList.mem_getIds_remove]
      simp [hremove, neighborsOf]
    · simp [hremove, neighborsOf]
    · have hnot : neighbor ∉ network.neighborsOf other := fun hmem ↦
        hhas (NodeList.has_iff.mpr hmem)
      exact ⟨fun hmem ↦ ⟨hmem, fun hthis ↦ hnot (hthis.2.2 ▸ hmem)⟩, And.left⟩
  · simp [hother]

/-- What an update can do when it is handled: nothing, an answer that asks for a removal by a node
that does not know the sender, or the removal of the sender where both are over the target. -/
theorem handle_cases (neighborTargetCount : ℕ) (network : Network DhtAddress)
    (update : Envelope DhtAddress) :
    (network.asksRemoval neighborTargetCount update = false ∧
      ∀ nodeId, (network.handle neighborTargetCount update).neighborsOf nodeId =
        network.neighborsOf nodeId) ∨
    (network.asksRemoval neighborTargetCount update = true ∧
      update.sender ∉ network.neighborsOf update.receiver ∧
      ∀ nodeId, (network.handle neighborTargetCount update).neighborsOf nodeId =
        network.neighborsOf nodeId) ∨
    (network.asksRemoval neighborTargetCount update = true ∧
      neighborTargetCount < (network.neighborsOf update.receiver).length ∧
      neighborTargetCount < update.message.neighborDescriptors.length ∧
      ∀ nodeId, (network.handle neighborTargetCount update).neighborsOf nodeId =
        if nodeId = update.receiver then
          ((network.node update.receiver).neighbors.remove update.sender).getIds
        else network.neighborsOf nodeId) := by
  have hafter : ∀ nodeId, (network.handle neighborTargetCount update).neighborsOf nodeId =
      if nodeId = update.receiver then ((network.node update.receiver).neighborUpdate
        neighborTargetCount update.message update.sender).1.neighbors.getIds
      else network.neighborsOf nodeId := fun nodeId ↦ neighborsOf_setNode network _ _ nodeId
  have hsame : ∀ nodeId, (if nodeId = update.receiver then
      (network.node update.receiver).neighbors.getIds else network.neighborsOf nodeId) =
      network.neighborsOf nodeId := fun nodeId ↦ by
    split_ifs with heq
    · rw [heq, neighborsOf]
    · rfl
  have hcases := (network.node update.receiver).neighborUpdate_cases neighborTargetCount
    update.message update.sender
  simp only [Node.removeMe_neighborUpdate] at hcases
  obtain ⟨hask, hneighbors⟩ | ⟨hask, hunknown, hneighbors⟩ | ⟨hask, hover, hlong, hneighbors⟩ :=
    hcases
  · exact Or.inl ⟨hask, fun nodeId ↦ by rw [hafter, hneighbors, hsame]⟩
  · refine Or.inr (Or.inl ⟨hask, fun hmem ↦ ?_, fun nodeId ↦ by rw [hafter, hneighbors, hsame]⟩)
    rw [NodeList.has_iff.mpr hmem] at hunknown
    exact Bool.noConfusion hunknown
  · rw [Node.neighborCount, NodeList.size_nil] at hover
    exact Or.inr (Or.inr ⟨hask, hover, hlong, fun nodeId ↦ by rw [hafter, hneighbors]⟩)

theorem hasRemoval_handle {neighborTargetCount : ℕ} {network : Network DhtAddress}
    {update : Envelope DhtAddress} {nodeId neighbor : DhtAddress} :
    (network.handle neighborTargetCount update).hasRemoval nodeId neighbor = true ↔
      network.hasRemoval nodeId neighbor = true ∨
        (network.asksRemoval neighborTargetCount update = true ∧ nodeId = update.sender ∧
          neighbor = update.receiver) := by
  rw [hasRemoval, handle, List.any_append, Bool.or_eq_true]
  refine or_congr Iff.rfl ?_
  simp [asksRemoval, Node.removeMe_neighborUpdate]
  tauto

/-! ### The invariant -/

/-- Who is about to lose a neighbour, or has lost one, has the target: the nodes of a removal that
is in flight, of a pair that is no longer mutual, and the sender of an update that says so. -/
structure Invariant (neighborTargetCount : ℕ) (network : Network DhtAddress) : Prop where
  pending : ∀ nodeId neighbor, network.hasRemoval nodeId neighbor = true →
    neighborTargetCount ≤ (network.settled nodeId).length ∧
      neighborTargetCount ≤ (network.neighborsOf neighbor).length
  parted : ∀ first second, network.met first second = true →
    network.areNeighbors first second = false →
      neighborTargetCount ≤ (network.neighborsOf first).length ∧
        neighborTargetCount ≤ (network.neighborsOf second).length
  announced : ∀ update ∈ network.updates,
    neighborTargetCount < update.message.neighborDescriptors.length →
      neighborTargetCount ≤ (network.neighborsOf update.sender).length

/-- A node with the target keeps it. -/
def Keeps (neighborTargetCount : ℕ) (network after : Network DhtAddress) : Prop :=
  ∀ nodeId, neighborTargetCount ≤ (network.neighborsOf nodeId).length →
    neighborTargetCount ≤ (after.neighborsOf nodeId).length

theorem invariant_create (neighborTargetCount : ℕ) (limit : DhtAddress → ℕ) :
    (create limit).Invariant neighborTargetCount where
  pending := fun _ _ hremoval ↦ Bool.noConfusion hremoval
  parted := fun _ _ hmet ↦ Bool.noConfusion hmet
  announced := fun _ hmem ↦ absurd hmem List.not_mem_nil

/-- A step that keeps the target keeps what the invariant says of parted pairs, when the pairs that
it parts have the target. -/
theorem parted_of_keeps {neighborTargetCount : ℕ} {network after : Network DhtAddress}
    (hinv : network.Invariant neighborTargetCount)
    (hkeeps : Keeps neighborTargetCount network after)
    (hmet : after.met = network.met)
    (hparts : ∀ first second, network.areNeighbors first second = true →
      after.areNeighbors first second = false →
        neighborTargetCount ≤ (network.neighborsOf first).length ∧
          neighborTargetCount ≤ (network.neighborsOf second).length)
    (first second : DhtAddress) (hhave : after.met first second = true)
    (hnot : after.areNeighbors first second = false) :
    neighborTargetCount ≤ (after.neighborsOf first).length ∧
      neighborTargetCount ≤ (after.neighborsOf second).length := by
  have hbefore : neighborTargetCount ≤ (network.neighborsOf first).length ∧
      neighborTargetCount ≤ (network.neighborsOf second).length := by
    cases hwere : network.areNeighbors first second with
    | true => exact hparts first second hwere hnot
    | false => exact hinv.parted first second (hmet ▸ hhave) hwere
  exact ⟨hkeeps first hbefore.1, hkeeps second hbefore.2⟩

/-- An update that is handled with a removal, between nodes that have met, has the target at both
its ends. -/
theorem ends_of_asksRemoval {neighborTargetCount : ℕ} {network : Network DhtAddress}
    (hinv : network.Invariant neighborTargetCount) {update : Envelope DhtAddress}
    (hmem : update ∈ network.updates) (hmet : network.met update.sender update.receiver = true)
    (hask : network.asksRemoval neighborTargetCount update = true) :
    neighborTargetCount ≤ (network.neighborsOf update.sender).length ∧
      neighborTargetCount ≤ (network.neighborsOf update.receiver).length := by
  obtain ⟨hnot, -⟩ | ⟨-, hunknown, -⟩ | ⟨-, hover, hlong, -⟩ :=
    network.handle_cases neighborTargetCount update
  · rw [hask] at hnot
    exact Bool.noConfusion hnot
  · refine hinv.parted _ _ hmet (Bool.eq_false_iff.mpr fun hare ↦ ?_)
    exact hunknown (areNeighbors_iff.mp hare).2
  · exact ⟨hinv.announced update hmem hlong, Nat.le_of_lt hover⟩

/-- Handling an update keeps the target. -/
theorem keeps_handle (neighborTargetCount : ℕ) (network : Network DhtAddress)
    (update : Envelope DhtAddress) :
    Keeps neighborTargetCount network (network.handle neighborTargetCount update) := by
  intro nodeId hsize
  obtain ⟨-, hsame⟩ | ⟨-, -, hsame⟩ | ⟨-, hover, -, hremoved⟩ :=
    network.handle_cases neighborTargetCount update
  · rwa [hsame]
  · rwa [hsame]
  · rw [hremoved]
    split_ifs
    · exact NodeList.le_length_getIds_remove hover
    · exact hsize

/-- A neighbour that stays one when an update is handled. -/
theorem mem_neighborsOf_handle {neighborTargetCount : ℕ} {network : Network DhtAddress}
    {update : Envelope DhtAddress} {nodeId member : DhtAddress}
    (hmem : member ∈ network.neighborsOf nodeId)
    (hstays : network.asksRemoval neighborTargetCount update = true →
      nodeId = update.receiver → member ≠ update.sender) :
    member ∈ (network.handle neighborTargetCount update).neighborsOf nodeId := by
  obtain ⟨-, hsame⟩ | ⟨-, -, hsame⟩ | ⟨hask, -, -, hremoved⟩ :=
    network.handle_cases neighborTargetCount update
  · rwa [hsame]
  · rwa [hsame]
  · rw [hremoved]
    split_ifs with hreceiver
    · rw [NodeList.mem_getIds_remove]
      exact ⟨hreceiver ▸ hmem, hstays hask hreceiver⟩
    · exact hmem

/-- The settled neighbours of a node, none of which an answer removes, are enough of them. -/
theorem keeps_settle {neighborTargetCount : ℕ} {network : Network DhtAddress}
    (hinv : network.Invariant neighborTargetCount) {nodeId neighbor : DhtAddress} {removeMe : Bool}
    (hremoval : removeMe = true → network.hasRemoval nodeId neighbor = true) :
    Keeps neighborTargetCount network (network.settle nodeId neighbor removeMe) := by
  intro other hsize
  by_cases hloses : removeMe = true ∧ other = nodeId
  · obtain ⟨hremove, rfl⟩ := hloses
    have hsettled := (hinv.pending other neighbor (hremoval hremove)).1
    refine Nat.le_trans hsettled (List.subperm_of_subset
      ((network.nodup_neighborsOf other).filter _) fun member hmem ↦ ?_).length_le
    obtain ⟨hneighbor, hnone⟩ := mem_settled.mp hmem
    refine mem_neighborsOf_settle.mpr ⟨hneighbor, ?_⟩
    rintro ⟨-, -, rfl⟩
    rw [hremoval hremove] at hnone
    exact Bool.noConfusion hnone
  · refine Nat.le_trans hsize (List.subperm_of_subset
      (network.nodup_neighborsOf other) fun member hmem ↦ ?_).length_le
    exact mem_neighborsOf_settle.mpr ⟨hmem, fun hthis ↦ hloses ⟨hthis.1, hthis.2.1⟩⟩

namespace Invariant

variable {neighborTargetCount : ℕ} {network after : Network DhtAddress}

/-- Fewer updates in flight. -/
theorem withUpdates (hinv : network.Invariant neighborTargetCount)
    {updates : List (Envelope DhtAddress)} (hsub : ∀ update ∈ updates, update ∈ network.updates) :
    ({ network with updates := updates }).Invariant neighborTargetCount :=
  ⟨hinv.pending, hinv.parted, fun update hmem ↦ hinv.announced update (hsub update hmem)⟩

/-- Fewer answers in flight. -/
theorem withAnswers (hinv : network.Invariant neighborTargetCount)
    {answers : List (Envelope DhtAddress)} (hsub : ∀ answer ∈ answers, answer ∈ network.answers) :
    ({ network with answers := answers }).Invariant neighborTargetCount where
  parted := hinv.parted
  announced := hinv.announced
  pending := by
    have hfewer : ∀ nodeId neighbor,
        ({ network with answers := answers }).hasRemoval nodeId neighbor = true →
          network.hasRemoval nodeId neighbor = true := fun nodeId neighbor hremoval ↦ by
      obtain ⟨answer, hmem, hanswer⟩ := hasRemoval_iff.mp hremoval
      exact hasRemoval_iff.mpr ⟨answer, hsub answer hmem, hanswer⟩
    intro nodeId neighbor hremoval
    obtain ⟨hsettled, hsize⟩ := hinv.pending nodeId neighbor (hfewer nodeId neighbor hremoval)
    refine ⟨le_settled_of_subset hsettled fun member hmem ↦ ?_, hsize⟩
    obtain ⟨hneighbor, hnone⟩ := mem_settled.mp hmem
    refine mem_settled.mpr ⟨hneighbor, Bool.eq_false_iff.mpr fun hsome ↦ ?_⟩
    rw [hfewer nodeId member hsome] at hnone
    exact Bool.noConfusion hnone

/-- New neighbours, and pairs that meet by that. -/
theorem of_grows (hinv : network.Invariant neighborTargetCount)
    (hupdates : after.updates = network.updates) (hanswers : after.answers = network.answers)
    (hgrows : ∀ nodeId, ∀ neighbor ∈ network.neighborsOf nodeId,
      neighbor ∈ after.neighborsOf nodeId)
    (hmet : ∀ first second, after.met first second = true →
      network.met first second = true ∨ after.areNeighbors first second = true) :
    after.Invariant neighborTargetCount ∧ Keeps neighborTargetCount network after := by
  have hkeeps : Keeps neighborTargetCount network after := fun nodeId hsize ↦
    Nat.le_trans hsize (List.subperm_of_subset (network.nodup_neighborsOf nodeId)
      (hgrows nodeId)).length_le
  have hremovals : ∀ nodeId neighbor, after.hasRemoval nodeId neighbor =
      network.hasRemoval nodeId neighbor := fun nodeId neighbor ↦ by
    rw [hasRemoval, hasRemoval, hanswers]
  refine ⟨⟨fun nodeId neighbor hremoval ↦ ?_, fun first second hhave hnot ↦ ?_,
    fun update hmem hlong ↦ ?_⟩, hkeeps⟩
  · rw [hremovals] at hremoval
    obtain ⟨hsettled, hsize⟩ := hinv.pending nodeId neighbor hremoval
    refine ⟨le_settled_of_subset hsettled fun member hmem ↦ ?_, hkeeps neighbor hsize⟩
    obtain ⟨hneighbor, hnone⟩ := mem_settled.mp hmem
    exact mem_settled.mpr ⟨hgrows nodeId member hneighbor, (hremovals nodeId member).trans hnone⟩
  · rcases hmet first second hhave with hbefore | hnow
    · have hwere : network.areNeighbors first second = false := by
        refine Bool.eq_false_iff.mpr fun hare ↦ ?_
        obtain ⟨hfirst, hsecond⟩ := areNeighbors_iff.mp hare
        rw [areNeighbors_iff.mpr ⟨hgrows _ _ hfirst, hgrows _ _ hsecond⟩] at hnot
        exact Bool.noConfusion hnot
      obtain ⟨hfirst, hsecond⟩ := hinv.parted first second hbefore hwere
      exact ⟨hkeeps first hfirst, hkeeps second hsecond⟩
    · rw [hnow] at hnot
      exact Bool.noConfusion hnot
  · rw [hupdates] at hmem
    exact hkeeps _ (hinv.announced update hmem hlong)

theorem updateNeighborInfo (hinv : network.Invariant neighborTargetCount) (nodeId : DhtAddress) :
    (network.updateNeighborInfo nodeId).Invariant neighborTargetCount := by
  refine ⟨hinv.pending, hinv.parted, fun update hmem hlong ↦ ?_⟩
  rcases List.mem_append.mp hmem with hold | hnew
  · exact hinv.announced update hold hlong
  · obtain ⟨neighbor, -, rfl⟩ := List.mem_map.mp hnew
    exact Nat.le_of_lt hlong

/-- A node that hears of its removal, or not. -/
theorem settle (hinv : network.Invariant neighborTargetCount) {nodeId neighbor : DhtAddress}
    {removeMe : Bool} (hremoval : removeMe = true → network.hasRemoval nodeId neighbor = true) :
    (network.settle nodeId neighbor removeMe).Invariant neighborTargetCount := by
  have hkeeps := keeps_settle hinv hremoval
  have hends : removeMe = true → neighborTargetCount ≤ (network.neighborsOf nodeId).length ∧
      neighborTargetCount ≤ (network.neighborsOf neighbor).length := fun hremove ↦ by
    obtain ⟨hsettled, hsize⟩ := hinv.pending nodeId neighbor (hremoval hremove)
    exact ⟨Nat.le_trans hsettled (List.length_filter_le _ _), hsize⟩
  refine ⟨fun receiver sender hanswer ↦ ?_, ?_, fun update hmem hlong ↦ ?_⟩
  · obtain ⟨hsettled, hsize⟩ := hinv.pending receiver sender hanswer
    refine ⟨le_settled_of_subset hsettled fun member hmem ↦ ?_, hkeeps sender hsize⟩
    obtain ⟨hneighbor, hnone⟩ := mem_settled.mp hmem
    refine mem_settled.mpr ⟨mem_neighborsOf_settle.mpr ⟨hneighbor, ?_⟩, hnone⟩
    rintro ⟨hremove, rfl, rfl⟩
    rw [hremoval hremove] at hnone
    exact Bool.noConfusion hnone
  · refine parted_of_keeps hinv hkeeps rfl fun first second hwere hnot ↦ ?_
    obtain ⟨hsecond, hfirst⟩ := areNeighbors_iff.mp hwere
    -- one of the two has lost the other one to this answer
    by_cases hlost : removeMe = true ∧
        ((first = nodeId ∧ second = neighbor) ∨ (second = nodeId ∧ first = neighbor))
    · obtain ⟨hremove, ⟨rfl, rfl⟩ | ⟨rfl, rfl⟩⟩ := hlost
      · exact hends hremove
      · exact (hends hremove).symm
    · have hstill := areNeighbors_iff.mpr
        ⟨mem_neighborsOf_settle.mpr ⟨hsecond, fun hthis ↦
          hlost ⟨hthis.1, Or.inl hthis.2⟩⟩,
        mem_neighborsOf_settle.mpr ⟨hfirst, fun hthis ↦
          hlost ⟨hthis.1, Or.inr hthis.2⟩⟩⟩
      rw [hstill] at hnot
      exact Bool.noConfusion hnot
  · exact hkeeps _ (hinv.announced update hmem hlong)

/-- A settled neighbour stays one when an update is handled, unless the update has a removal and
they are its ends. -/
theorem mem_settled_handle {update : Envelope DhtAddress} {nodeId member : DhtAddress}
    (hmember : member ∈ network.settled nodeId)
    (hsender : network.asksRemoval neighborTargetCount update = true → nodeId = update.sender →
      member ≠ update.receiver)
    (hreceiver : network.asksRemoval neighborTargetCount update = true →
      nodeId = update.receiver → member ≠ update.sender) :
    member ∈ (network.handle neighborTargetCount update).settled nodeId := by
  obtain ⟨hneighbor, hnone⟩ := mem_settled.mp hmember
  refine mem_settled.mpr ⟨mem_neighborsOf_handle hneighbor hreceiver,
    Bool.eq_false_iff.mpr fun hsome ↦ ?_⟩
  rcases hasRemoval_handle.mp hsome with hold | ⟨hask, hnode, hreceived⟩
  · rw [hold] at hnone
    exact Bool.noConfusion hnone
  · exact hsender hask hnode hreceived

/-- A node with a removal in flight has enough settled neighbours after an update that is handled
with enough on both sides. -/
theorem le_settled_handle (hinv : network.Invariant neighborTargetCount)
    {update : Envelope DhtAddress} {nodeId neighbor : DhtAddress}
    (henough : network.asksRemoval neighborTargetCount update = true →
      neighborTargetCount ≤ network.settledBeside update.sender update.receiver ∧
      (update.sender ∈ network.neighborsOf update.receiver →
        network.awaitsRemoval update.receiver = true →
        neighborTargetCount ≤ network.settledBeside update.receiver update.sender))
    (hremoval : (network.handle neighborTargetCount update).hasRemoval nodeId neighbor = true) :
    neighborTargetCount ≤
      ((network.handle neighborTargetCount update).settled nodeId).length := by
  by_cases hfrom : network.asksRemoval neighborTargetCount update = true ∧ nodeId = update.sender
  · obtain ⟨hask, rfl⟩ := hfrom
    refine le_settled_of_subset_beside (henough hask).1 fun member hmember hother ↦
      mem_settled_handle hmember (fun _ _ ↦ hother) fun _ hself ↦ ?_
    rw [hself]
    exact hother
  have hflight : network.hasRemoval nodeId neighbor = true :=
    (hasRemoval_handle.mp hremoval).resolve_right fun hnew ↦ hfrom ⟨hnew.1, hnew.2.1⟩
  by_cases hat : network.asksRemoval neighborTargetCount update = true ∧
      nodeId = update.receiver ∧ update.sender ∈ network.neighborsOf update.receiver
  · obtain ⟨hask, rfl, hhas⟩ := hat
    exact le_settled_of_subset_beside ((henough hask).2 hhas
      (awaitsRemoval_of_hasRemoval hflight)) fun member hmember hother ↦
        mem_settled_handle hmember (fun hask' hself ↦ absurd ⟨hask', hself⟩ hfrom)
          fun _ _ ↦ hother
  · refine le_settled_of_subset (hinv.pending nodeId neighbor hflight).1 fun member hmember ↦
      mem_settled_handle hmember (fun hask hself ↦ absurd ⟨hask, hself⟩ hfrom)
        fun hask hself hsender ↦ hat ⟨hask, hself, ?_⟩
    rw [← hself, ← hsender]
    exact (mem_settled.mp hmember).1

/-- An update that is handled with enough settled neighbours on both sides. -/
theorem handle (hinv : network.Invariant neighborTargetCount) {update : Envelope DhtAddress}
    (hmem : update ∈ network.updates)
    (hmet : network.asksRemoval neighborTargetCount update = true →
      network.met update.sender update.receiver = true)
    (henough : network.asksRemoval neighborTargetCount update = true →
      neighborTargetCount ≤ network.settledBeside update.sender update.receiver ∧
      (update.sender ∈ network.neighborsOf update.receiver →
        network.awaitsRemoval update.receiver = true →
        neighborTargetCount ≤ network.settledBeside update.receiver update.sender)) :
    (network.handle neighborTargetCount update).Invariant neighborTargetCount := by
  have hkeeps := keeps_handle neighborTargetCount network update
  have hends := fun hask ↦ ends_of_asksRemoval hinv hmem (hmet hask) hask
  refine ⟨fun nodeId neighbor hremoval ↦ ?_, ?_, fun other hother hlong ↦ ?_⟩
  · refine ⟨hinv.le_settled_handle henough hremoval, hkeeps neighbor ?_⟩
    rcases hasRemoval_handle.mp hremoval with hbefore | ⟨hask, -, rfl⟩
    · exact (hinv.pending nodeId neighbor hbefore).2
    · exact (hends hask).2
  · refine parted_of_keeps hinv hkeeps rfl fun first second hwere hnot ↦ ?_
    obtain ⟨hsecond, hfirst⟩ := areNeighbors_iff.mp hwere
    by_cases hlost : network.asksRemoval neighborTargetCount update = true ∧
        ((first = update.receiver ∧ second = update.sender) ∨
          (second = update.receiver ∧ first = update.sender))
    · obtain ⟨hask, ⟨rfl, rfl⟩ | ⟨rfl, rfl⟩⟩ := hlost
      · exact (hends hask).symm
      · exact hends hask
    · have hstill := areNeighbors_iff.mpr
        ⟨mem_neighborsOf_handle hsecond fun hask hnode hthis ↦ hlost ⟨hask, Or.inl ⟨hnode, hthis⟩⟩,
        mem_neighborsOf_handle hfirst fun hask hnode hthis ↦ hlost ⟨hask, Or.inr ⟨hnode, hthis⟩⟩⟩
      rw [hstill] at hnot
      exact Bool.noConfusion hnot
  · exact hkeeps _ (hinv.announced other hother hlong)

end Invariant

/-! ### Runs -/

/-- What a step that leaves both ends enough does. -/
theorem invariant_step {neighborTargetCount : ℕ} {network after : Network DhtAddress}
    {event : Event DhtAddress} (hinv : network.Invariant neighborTargetCount)
    (hmutual : network.RemovesMutual neighborTargetCount event)
    (henough : network.LeavesEnough neighborTargetCount event)
    (hstep : step neighborTargetCount network event = some after) :
    after.Invariant neighborTargetCount ∧ Keeps neighborTargetCount network after := by
  cases event with
  | round nodeId =>
    obtain rfl := Option.some.inj hstep
    exact ⟨hinv.updateNeighborInfo nodeId, fun _ ↦ id⟩
  | handled index =>
    obtain ⟨update, hupdate, rfl⟩ := Option.map_eq_some_iff.mp hstep
    have hhandled := hinv.handle (List.mem_of_getElem? hupdate) (hmutual update hupdate)
      (henough update hupdate)
    exact ⟨hhandled.withUpdates fun _ ↦ List.mem_of_mem_eraseIdx,
      keeps_handle neighborTargetCount network update⟩
  | answered index =>
    obtain ⟨answer, hanswer, rfl⟩ := Option.map_eq_some_iff.mp hstep
    have hremoval : answer.message.removeMe = true →
        network.hasRemoval answer.receiver answer.sender = true := fun hremove ↦
      hasRemoval_iff.mpr ⟨answer, List.mem_of_getElem? hanswer, rfl, rfl, hremove⟩
    exact ⟨(hinv.settle hremoval).withAnswers fun _ ↦ List.mem_of_mem_eraseIdx,
      keeps_settle hinv hremoval⟩
  | failed index => exact absurd hmutual id
  | unanswered index => exact absurd hmutual id
  | addNeighbor nodeId neighbor =>
    obtain rfl := Option.some.inj hstep
    refine hinv.of_grows rfl rfl (fun other member hmem ↦ ?_) fun first second hhave ↦ ?_
    · have hadded : (network.addNeighbor nodeId neighbor).neighborsOf other =
          if other = nodeId then ((network.node nodeId).neighbors.add neighbor).getIds
          else network.neighborsOf other := neighborsOf_setNode network _ _ other
      rw [hadded]
      split_ifs with hother
      · exact NodeList.mem_getIds_add_of_mem (hother ▸ hmem)
      · exact hmem
    · exact Bool.or_eq_true_iff.mp hhave
  | handshakeStarted nodeId remoteNodeId =>
    obtain rfl := Option.some.inj hstep
    exact hinv.of_grows rfl rfl
      (fun other _ hmem ↦ (neighborsOf_setHandshakes network nodeId _ other).symm ▸ hmem)
      fun _ _ ↦ Or.inl
  | handshakeEnded nodeId remoteNodeId =>
    obtain rfl := Option.some.inj hstep
    exact hinv.of_grows rfl rfl
      (fun other _ hmem ↦ (neighborsOf_setHandshakes network nodeId _ other).symm ▸ hmem)
      fun _ _ ↦ Or.inl

/-! ### Rounds of a node with two neighbours -/

/-- A node with two neighbours, each of which has another one. -/
def linking : List (Event ℕ) :=
  [.addNeighbor 0 1, .addNeighbor 1 0, .addNeighbor 0 2, .addNeighbor 2 0, .addNeighbor 1 3,
    .addNeighbor 3 1, .addNeighbor 2 4, .addNeighbor 4 2]

/-- The node sends its updates, and the neighbours answer with removals. -/
def roundOfTwo : List (Event ℕ) :=
  linking ++ [.round 0, .handled 0, .handled 0, .answered 0]

/-- The node sends its updates, and one neighbour answers with a removal. -/
def roundOfOne : List (Event ℕ) := linking ++ [.round 0, .handled 0]

/-- A step that takes a node from a number of neighbours to another one. -/
def movesCount (event : Event ℕ) (from' to' : ℕ) (network : Network ℕ) : Bool :=
  (step 1 network event).any fun after ↦
    (network.node 0).neighborCount = from' && (after.node 0).neighborCount = to'

/-- In a run in which every update that ends in a removal leaves both its nodes enough settled
neighbours, no step takes a node below the target. -/
theorem target_kept (neighborTargetCount : ℕ) (limit : DhtAddress → ℕ)
    (network after : Network DhtAddress) (event : Event DhtAddress)
    (hreachable : Transition.Reachable (step neighborTargetCount)
      (fun network event ↦ network.RemovesMutual neighborTargetCount event ∧
        network.LeavesEnough neighborTargetCount event) (· = create limit) network)
    (hmutual : network.RemovesMutual neighborTargetCount event)
    (henough : network.LeavesEnough neighborTargetCount event)
    (hstep : step neighborTargetCount network event = some after) :
    ∀ nodeId, neighborTargetCount ≤ (network.node nodeId).neighborCount →
      neighborTargetCount ≤ (after.node nodeId).neighborCount := by
  have hinv : network.Invariant neighborTargetCount := by
    refine hreachable.invariant ?_ ?_
    · rintro state rfl
      exact invariant_create neighborTargetCount limit
    · intro state other next _ hbefore hguard hnext
      exact (invariant_step hbefore hguard.1 hguard.2 hnext).1
  intro nodeId
  rw [Node.neighborCount, Node.neighborCount, NodeList.size_nil, NodeList.size_nil]
  exact (invariant_step hinv hmutual henough hstep).2 nodeId

/-- One of the two neighbours asks to be removed, and the other one stays. -/
theorem target_kept_roundOfOne : ∃ network after : Network ℕ,
    (network.node 0).neighborCount = 2 ∧ (after.node 0).neighborCount = 1 ∧
    step 1 network (.answered 0) = some after ∧
    ∀ nodeId, 1 ≤ (network.node nodeId).neighborCount →
      1 ≤ (after.node nodeId).neighborCount := by
  have hsome : (Transition.checkedRun (step 1)
      (fun network event ↦ decide (network.RemovesMutual 1 event ∧ network.LeavesEnough 1 event))
      (create fun _ ↦ 20) roundOfOne).any (movesCount (.answered 0) 2 1) = true := by
    decide +kernel
  obtain ⟨network, hrun, hmoves⟩ := (Option.any_eq_true _ _).mp hsome
  obtain ⟨after, hstep, hcounts⟩ := (Option.any_eq_true _ _).mp hmoves
  rw [Bool.and_eq_true, decide_eq_true_eq, decide_eq_true_eq] at hcounts
  exact ⟨network, after, hcounts.1, hcounts.2, hstep,
    target_kept 1 (fun _ ↦ 20) network after (.answered 0)
      (Transition.Reachable.of_checkedRun roundOfOne (fun _ _ ↦ of_decide_eq_true) (.start rfl)
        hrun) trivial trivial hstep⟩

/-- Two neighbours of a node that is over the target by one both ask to be removed. -/
theorem round_cuts_below_target : ∃ (network after : Network ℕ) (event : Event ℕ),
    Transition.Reachable (step 1) (fun network event ↦ network.RemovesMutual 1 event)
      (· = create fun _ ↦ 20) network ∧
    network.RemovesMutual 1 event ∧ step 1 network event = some after ∧
    1 ≤ (network.node 0).neighborCount ∧ (after.node 0).neighborCount < 1 := by
  have hsome : (Transition.checkedRun (step 1)
      (fun network event ↦ decide (network.RemovesMutual 1 event)) (create fun _ ↦ 20)
      roundOfTwo).any (movesCount (.answered 0) 1 0) = true := by decide +kernel
  obtain ⟨network, hrun, hmoves⟩ := (Option.any_eq_true _ _).mp hsome
  obtain ⟨after, hstep, hcounts⟩ := (Option.any_eq_true _ _).mp hmoves
  rw [Bool.and_eq_true, decide_eq_true_eq, decide_eq_true_eq] at hcounts
  have hreachable : Transition.Reachable (step 1)
      (fun network event ↦ network.RemovesMutual 1 event) (· = create fun _ ↦ 20) network :=
    Transition.Reachable.of_checkedRun roundOfTwo (fun _ _ ↦ of_decide_eq_true) (.start rfl) hrun
  exact ⟨network, after, .answered 0, hreachable, trivial, hstep, by omega, by omega⟩

end Network

end PomboStorageNode.TrackerlessNetwork.NeighborUpdates
