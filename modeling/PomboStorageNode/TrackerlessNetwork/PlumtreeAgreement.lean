import PomboStorageNode.TrackerlessNetwork.Plumtree
import Mathlib.Algebra.GroupWithZero.Nat
import Mathlib.Data.Fintype.Basic

/-!
# Two nodes agree on what is paused

Two nodes run the Plumtree manager, with reliable channels in both directions that keep the order of
the notifications. Each of them has other neighbours too: messages, duplicates and notifications of
those, and additions and removals of any neighbour, happen at either node at any time. A node may
also tell the other one to remove it.

`Agreement` says that a node that withholds messages from the other one is known by that one to be
paused, unless a notification that ends the pause is in flight. A node that removes the other and
adds it again has forgotten its pauses, of which the other one was told
(`readded_neighbor_withholds`). `agreement_of_rejoinsUnpaused` holds in the runs in which a node is
added only by one that has no pause left at it.
-/

set_option autoImplicit false

namespace PomboStorageNode.TrackerlessNetwork.PlumtreeAgreement

open Library Plumtree

/-! ### The system -/

/-- The two nodes. -/
inductive Side
  | first
  | second
  deriving DecidableEq

/-- The other node. -/
def Side.other : Side → Side
  | .first => .second
  | .second => .first

@[simp] theorem Side.other_other (side : Side) : side.other.other = side := by
  cases side <;> rfl

theorem Side.other_ne (side : Side) : side.other ≠ side := by
  cases side <;> decide

theorem Side.eq_or_eq_other (side which : Side) : which = side ∨ which = side.other := by
  cases side <;> cases which <;> decide

/-- What is in flight: a notification, or the notice that makes the receiver remove the sender. -/
inductive InFlight (Chain : Type*)
  | notification (notification : Notification Chain)
  | removal
  deriving DecidableEq

/-- The managers of the two nodes, and what is in flight to each of them, the oldest first. -/
structure System (Chain DhtAddress : Type*) where
  node : Side → PlumtreeManager Chain DhtAddress
  channel : Side → List (InFlight Chain)

variable {Chain DhtAddress : Type*} [DecidableEq Chain] [DecidableEq DhtAddress]

/-- What of a step's sends is a notification to a node. -/
def notificationsTo (node : DhtAddress) (sent : List (Sent Chain DhtAddress)) :
    List (InFlight Chain) :=
  sent.filterMap fun
    | .notification receiver notification =>
      if receiver = node then some (.notification notification) else none
    | .streamMessage _ _ => none

/-- A step of one node. -/
def act (ids : Side → DhtAddress) (system : System Chain DhtAddress) (side : Side)
    (event : Event Chain DhtAddress) : Option (System Chain DhtAddress) :=
  (Plumtree.step (system.node side) event).map fun result ↦
    { node := Function.update system.node side result.1
      channel := Function.update system.channel side.other
        (system.channel side.other ++ notificationsTo (ids side.other) result.2) }

/-- What can happen: a step of a node that is no notification of the other one, the delivery of
what is first in the channel to a node, and a notice of a node to the other one. -/
inductive Action (Chain DhtAddress : Type*)
  | atNode (side : Side) (event : Event Chain DhtAddress)
  | deliver (side : Side)
  | sendRemoval (side : Side)
  deriving DecidableEq

/-- Whether an event is a notification of a node. -/
def isFrom (node : DhtAddress) : Event Chain DhtAddress → Bool
  | .receive sender _ => sender = node
  | _ => false

/-- What the receiver does when something is delivered to it. -/
def deliveryOf (sender : DhtAddress) : InFlight Chain → Event Chain DhtAddress
  | .notification notification => .receive sender notification
  | .removal => .removeNeighbor sender

/-- One step of the system. -/
def step (ids : Side → DhtAddress) (system : System Chain DhtAddress) :
    Action Chain DhtAddress → Option (System Chain DhtAddress)
  | .atNode side event =>
    if isFrom (ids side.other) event then none else act ids system side event
  | .deliver side =>
    match system.channel side with
    | [] => none
    | first :: rest =>
      act ids { system with channel := Function.update system.channel side rest } side
        (deliveryOf (ids side.other) first)
  | .sendRemoval side =>
    some { system with
      channel := Function.update system.channel side.other
        (system.channel side.other ++ [.removal]) }

/-- Two new nodes. -/
def System.create (ids : Side → DhtAddress) (limits maxPausedNeighbors : Side → ℕ) :
    System Chain DhtAddress where
  node := fun side ↦ PlumtreeManager.create (ids side) (limits side) (maxPausedNeighbors side)
  channel := fun _ ↦ []

/-! ### Agreement -/

/-- What something in flight does to the pause of a chain. -/
inductive Effect
  | pauses
  | resumes
  deriving DecidableEq

/-- The effect of something in flight on a chain, if it has one. -/
def effect (chain : Chain) : InFlight Chain → Option Effect
  | .notification (.pauseNeighbor other) => if other = chain then some .pauses else none
  | .notification (.resumeNeighbor _ other) => if other = chain then some .resumes else none
  | .notification (.sendMetadata _) => none
  | .removal => some .resumes

/-- The effect that is delivered last. -/
def lastEffect (chain : Chain) (channel : List (InFlight Chain)) : Option Effect :=
  (channel.filterMap (effect chain)).getLast?

/-- While the nodes have each other as neighbours, a node that withholds the messages of a chain
from the other one is known by that one to be paused, so that its `resumeNeighbor` sends a
notification; or something that ends the pause is in flight, with no pause behind it. -/
def Agreement (ids : Side → DhtAddress) (system : System Chain DhtAddress) : Prop :=
  ∀ side chain,
    (system.node side).neighbors.has (ids side.other) = true →
    (system.node side.other).neighbors.has (ids side) = true →
    (system.node side).localPausedNeighbors.isPaused (ids side.other) chain = true →
      ((system.node side.other).remotePausedNeighbors.isPaused (ids side) chain = true ∧
        ∀ fromTimestamp,
          ((system.node side.other).resumeNeighbor (ids side) chain fromTimestamp).2 =
            [.notification (ids side) (.resumeNeighbor fromTimestamp chain)]) ∨
      lastEffect chain (system.channel side) = some .resumes

/-- A node adds the other one only when, for every chain, the last effect in flight to it is no
pause, and if there is none in flight then the other one does not withhold the chain. -/
def RejoinsUnpaused (ids : Side → DhtAddress) (system : System Chain DhtAddress) :
    Action Chain DhtAddress → Prop
  | .atNode side (.addNeighbor nodeId) =>
    nodeId = ids side.other → (system.node side).neighbors.has nodeId = false →
      ((system.node side).neighbors.add nodeId).has nodeId = true →
      ∀ chain, lastEffect chain (system.channel side.other) ≠ some .pauses ∧
        (lastEffect chain (system.channel side.other) = none →
          (system.node side.other).localPausedNeighbors.isPaused (ids side) chain = false)
  | _ => True

/-! ### What a step of a node does to the pauses between it and a peer -/

/-- The effects on a chain of what a node sends to a peer. -/
def effectsTo (peer : DhtAddress) (chain : Chain) (sent : List (Sent Chain DhtAddress)) :
    List Effect :=
  (notificationsTo peer sent).filterMap (effect chain)

/-- Messages have no effect on a pause. -/
theorem effectsTo_messages (peer neighbor : DhtAddress) (chain : Chain)
    (messages : List (MessageID Chain)) :
    effectsTo peer chain (messages.map (Sent.streamMessage neighbor)) = [] := by
  induction messages with
  | nil => rfl
  | cons msg messages ih => exact ih

theorem effectsTo_pause (peer node : DhtAddress) (chain other : Chain) :
    effectsTo peer chain [Sent.notification node (.pauseNeighbor other)] =
      if node = peer ∧ other = chain then [Effect.pauses] else [] := by
  by_cases hnode : node = peer <;> by_cases hchain : other = chain <;>
    simp [effectsTo, notificationsTo, effect, hnode, hchain]

theorem effectsTo_resume (peer node : DhtAddress) (chain other : Chain) (fromTimestamp : ℤ) :
    effectsTo peer chain [Sent.notification node (.resumeNeighbor fromTimestamp other)] =
      if node = peer ∧ other = chain then [Effect.resumes] else [] := by
  by_cases hnode : node = peer <;> by_cases hchain : other = chain <;>
    simp [effectsTo, notificationsTo, effect, hnode, hchain]

theorem effectsTo_metadata (peer node : DhtAddress) (chain : Chain) (msg : MessageID Chain) :
    effectsTo peer chain [Sent.notification node (.sendMetadata msg)] = [] := by
  by_cases hnode : node = peer <;> simp [effectsTo, notificationsTo, effect, hnode]

/-- A step of a node as seen by a peer it may have paused for a chain: nothing is sent and what is
known of a pause is kept, or the pause was sent and is known, or a resume was sent, or the peer is
no neighbour, or it has become one. -/
def AsPauser (peer : DhtAddress) (chain : Chain) (event : Event Chain DhtAddress)
    (before after : PlumtreeManager Chain DhtAddress) (sent : List (Sent Chain DhtAddress)) :
    Prop :=
  (effectsTo peer chain sent = [] ∧
    (before.remotePausedNeighbors.isPaused peer chain = true →
      after.remotePausedNeighbors.isPaused peer chain = true) ∧
    (after.neighbors.has peer = true → before.neighbors.has peer = true)) ∨
  (effectsTo peer chain sent = [.pauses] ∧
    after.remotePausedNeighbors.isPaused peer chain = true) ∨
  effectsTo peer chain sent = [.resumes] ∨
  after.neighbors.has peer = false ∨
  (event = .addNeighbor peer ∧ before.neighbors.has peer = false ∧
    (before.neighbors.add peer).has peer = true ∧ effectsTo peer chain sent = [])

theorem asPauser_resumeNeighbor (peer : DhtAddress) (chain : Chain)
    (event : Event Chain DhtAddress) {before manager : PlumtreeManager Chain DhtAddress}
    (hneighbors : manager.neighbors = before.neighbors)
    (hremote : manager.remotePausedNeighbors = before.remotePausedNeighbors) (node : DhtAddress)
    (other : Chain) (fromTimestamp : ℤ) :
    AsPauser peer chain event before (manager.resumeNeighbor node other fromTimestamp).1
      (manager.resumeNeighbor node other fromTimestamp).2 := by
  obtain ⟨heq, -, hpaused⟩ := resumeNeighbor_eq manager node other fromTimestamp
  have hsame : (manager.resumeNeighbor node other fromTimestamp).1.neighbors =
      before.neighbors := by
    rw [heq]
    exact hneighbors
  by_cases hthis : node = peer ∧ other = chain ∧
      manager.remotePausedNeighbors.isPaused node other = true
  · refine Or.inr (Or.inr (Or.inl ?_))
    rw [PlumtreeManager.resumeNeighbor, if_pos hthis.2.2, effectsTo_resume,
      if_pos ⟨hthis.1, hthis.2.1⟩]
  · refine Or.inl ⟨?_, fun hbefore ↦ (hpaused peer chain).mpr ⟨hremote ▸ hbefore, ?_⟩, ?_⟩
    · rw [PlumtreeManager.resumeNeighbor]
      split_ifs with hnode
      · rw [effectsTo_resume, if_neg fun hboth ↦ hthis ⟨hboth.1, hboth.2, hnode⟩]
      · rfl
    · rintro ⟨rfl, rfl⟩
      exact hthis ⟨rfl, rfl, hremote ▸ hbefore⟩
    · rw [hsame]
      exact id

/-- A step that sends no notification and keeps the neighbours and what is known of pauses. -/
theorem asPauser_of_same {peer : DhtAddress} {chain : Chain} {event : Event Chain DhtAddress}
    {before after : PlumtreeManager Chain DhtAddress} {sent : List (Sent Chain DhtAddress)}
    (hsent : effectsTo peer chain sent = []) (hneighbors : after.neighbors = before.neighbors)
    (hremote : after.remotePausedNeighbors = before.remotePausedNeighbors) :
    AsPauser peer chain event before after sent :=
  Or.inl ⟨hsent, fun hpaused ↦ hremote ▸ hpaused, fun hhas ↦ hneighbors ▸ hhas⟩

theorem asPauser_pauseNeighbor {manager : PlumtreeManager Chain DhtAddress}
    (hinv : Plumtree.Invariant manager) (peer : DhtAddress) (chain : Chain)
    (event : Event Chain DhtAddress) (node : DhtAddress) (other : Chain) :
    AsPauser peer chain event manager (manager.pauseNeighbor node other).1
      (manager.pauseNeighbor node other).2 := by
  rw [PlumtreeManager.pauseNeighbor]
  split_ifs with hpause
  · by_cases hthis : node = peer ∧ other = chain
    · refine Or.inr (Or.inl ⟨?_, ?_⟩)
      · rw [effectsTo_pause, if_pos hthis]
      · rw [PlumtreeManager.wouldPause, Bool.and_eq_true, decide_eq_true_eq,
          ← hinv.limit_eq] at hpause
        obtain ⟨rfl, rfl⟩ := hthis
        exact PausedNeighbors.isPaused_add_self hpause.2
    · refine Or.inl ⟨?_, PausedNeighbors.isPaused_add_of_isPaused, id⟩
      rw [effectsTo_pause, if_neg hthis]
  · exact asPauser_of_same rfl rfl rfl

theorem asPauser_addNeighbor (manager : PlumtreeManager Chain DhtAddress) (peer : DhtAddress)
    (chain : Chain) (nodeId : DhtAddress) :
    AsPauser peer chain (.addNeighbor nodeId) manager (manager.addNeighbor nodeId) [] := by
  by_cases hbefore : manager.neighbors.has peer = true
  · exact Or.inl ⟨rfl, id, fun _ ↦ hbefore⟩
  by_cases hafter : (manager.addNeighbor nodeId).neighbors.has peer = true
  · have hmem := NodeList.mem_getIds_add (NodeList.has_iff.mp hafter)
    rcases hmem with rfl | hmem
    · rw [Bool.not_eq_true] at hbefore
      exact Or.inr (Or.inr (Or.inr (Or.inr ⟨rfl, hbefore, hafter, rfl⟩)))
    · exact absurd (NodeList.has_iff.mpr hmem) hbefore
  · rw [Bool.not_eq_true] at hafter
    exact Or.inr (Or.inr (Or.inr (Or.inl hafter)))

theorem asPauser_removeNeighbor (manager : PlumtreeManager Chain DhtAddress) (peer : DhtAddress)
    (chain : Chain) (nodeId : DhtAddress) :
    AsPauser peer chain (.removeNeighbor nodeId) manager (manager.removeNeighbor nodeId) [] := by
  unfold PlumtreeManager.removeNeighbor
  split_ifs with hhas
  · obtain ⟨hneighbors, -, hremote⟩ := onNeighborRemoved_spec
      { manager with neighbors := manager.neighbors.remove nodeId } nodeId
    by_cases heq : peer = nodeId
    · refine Or.inr (Or.inr (Or.inr (Or.inl ?_)))
      rw [hneighbors, Bool.eq_false_iff, Ne, NodeList.has_iff, NodeList.mem_getIds_remove]
      exact fun hmem ↦ hmem.2 heq
    · refine Or.inl ⟨rfl, fun hpaused ↦ ?_, fun hafter ↦ ?_⟩
      · rw [hremote, PausedNeighbors.isPaused_deleteAll]
        exact ⟨hpaused, heq⟩
      · rw [hneighbors, NodeList.has_iff, NodeList.mem_getIds_remove] at hafter
        exact NodeList.has_iff.mpr hafter.1
  · exact asPauser_of_same rfl rfl rfl

theorem asPauser_onMetadata (manager : PlumtreeManager Chain DhtAddress) (peer : DhtAddress)
    (chain : Chain) (event : Event Chain DhtAddress) (msg : MessageID Chain)
    (previousNode : DhtAddress) :
    AsPauser peer chain event manager (manager.onMetadata msg previousNode).1
      (manager.onMetadata msg previousNode).2 := by
  unfold PlumtreeManager.onMetadata
  dsimp only
  split_ifs
  · exact asPauser_resumeNeighbor peer chain event rfl rfl previousNode msg.messageChainId _
  · exact asPauser_of_same rfl rfl rfl
  · exact asPauser_of_same rfl rfl rfl

theorem asPauser_sendStreamMessage {manager : PlumtreeManager Chain DhtAddress}
    (hinv : Plumtree.Invariant manager) (peer : DhtAddress) (chain : Chain)
    (event : Event Chain DhtAddress) (msg : MessageID Chain) (previousNode : DhtAddress)
    (isNew : Bool) :
    AsPauser peer chain event manager (manager.sendStreamMessage msg previousNode isNew).1
      (manager.sendStreamMessage msg previousNode isNew).2 := by
  unfold PlumtreeManager.sendStreamMessage
  split_ifs
  · exact asPauser_of_same rfl rfl rfl
  · exact asPauser_pauseNeighbor hinv peer chain event previousNode msg.messageChainId

theorem asPauser_receive (manager : PlumtreeManager Chain DhtAddress) (peer : DhtAddress)
    (chain : Chain) (event : Event Chain DhtAddress) (sender : DhtAddress)
    (notification : Notification Chain) :
    AsPauser peer chain event manager (manager.receive sender notification).1
      (manager.receive sender notification).2 := by
  cases notification with
  | pauseNeighbor other =>
    rw [PlumtreeManager.receive]
    split_ifs
    · exact asPauser_of_same rfl rfl rfl
    · exact asPauser_of_same rfl rfl rfl
  | resumeNeighbor fromTimestamp other =>
    exact asPauser_of_same (effectsTo_messages peer sender chain _) rfl rfl
  | sendMetadata msg => exact asPauser_onMetadata manager peer chain event msg sender

/-- A callback runs with the rest of them scheduled, on the node before the step. -/
theorem asPauser_runImmediate {before manager : PlumtreeManager Chain DhtAddress}
    (hneighbors : manager.neighbors = before.neighbors)
    (hremote : manager.remotePausedNeighbors = before.remotePausedNeighbors) (peer : DhtAddress)
    (chain : Chain) (event : Event Chain DhtAddress) (callback : Immediate Chain DhtAddress) :
    AsPauser peer chain event before (manager.runImmediate callback).1
      (manager.runImmediate callback).2 := by
  cases callback with
  | resumeNeighbor node other =>
    exact asPauser_resumeNeighbor peer chain event hneighbors hremote node other _
  | sendMetadata node msg =>
    exact asPauser_of_same (effectsTo_metadata peer node chain msg) hneighbors hremote
  | sendStreamMessage node msg => exact asPauser_of_same rfl hneighbors hremote

/-- Every step of a node is one of the kinds of `AsPauser`. -/
theorem step_asPauser {before after : PlumtreeManager Chain DhtAddress}
    {event : Event Chain DhtAddress} {sent : List (Sent Chain DhtAddress)}
    (hinv : Plumtree.Invariant before) (hstep : Plumtree.step before event = some (after, sent))
    (peer : DhtAddress) (chain : Chain) : AsPauser peer chain event before after sent := by
  cases event with
  | sendStreamMessage msg previousNode isNew =>
    rw [Plumtree.step, Option.some.injEq] at hstep
    have hpauser := asPauser_sendStreamMessage hinv peer chain
      (.sendStreamMessage msg previousNode isNew) msg previousNode isNew
    rw [hstep] at hpauser
    exact hpauser
  | addNeighbor nodeId =>
    rw [Plumtree.step, Option.some.injEq, Prod.mk.injEq] at hstep
    obtain ⟨rfl, rfl⟩ := hstep
    exact asPauser_addNeighbor before peer chain nodeId
  | removeNeighbor nodeId =>
    rw [Plumtree.step, Option.some.injEq, Prod.mk.injEq] at hstep
    obtain ⟨rfl, rfl⟩ := hstep
    exact asPauser_removeNeighbor before peer chain nodeId
  | receive sender notification =>
    rw [Plumtree.step, Option.some.injEq] at hstep
    have hpauser := asPauser_receive before peer chain (.receive sender notification) sender
      notification
    rw [hstep] at hpauser
    exact hpauser
  | immediate =>
    simp only [Plumtree.step] at hstep
    split at hstep
    · cases hstep
    case _ callback rest hscheduled =>
      rw [Option.some.injEq] at hstep
      have hpauser := asPauser_runImmediate
        (show PlumtreeManager.neighbors { before with scheduled := rest } = before.neighbors
          from rfl) rfl peer chain .immediate callback
      rw [hstep] at hpauser
      exact hpauser
  | metadataHandled call =>
    simp only [Plumtree.step] at hstep
    obtain ⟨other, -, heq⟩ := Option.map_eq_some_iff.mp hstep
    rw [Prod.mk.injEq] at heq
    obtain ⟨rfl, rfl⟩ := heq
    unfold PlumtreeManager.afterMetadata
    split_ifs <;> exact asPauser_of_same rfl rfl rfl

/-- Only neighbours withhold messages from each other. -/
def WithholdsFromNeighbors (manager : PlumtreeManager Chain DhtAddress) : Prop :=
  ∀ node chain, manager.localPausedNeighbors.isPaused node chain = true →
    manager.neighbors.has node = true

/-- The neighbours, and those of them from which messages are withheld, are the same. -/
def SameLocal (before after : PlumtreeManager Chain DhtAddress) : Prop :=
  after.neighbors = before.neighbors ∧
    after.localPausedNeighbors = before.localPausedNeighbors

theorem sameLocal_pauseNeighbor (manager : PlumtreeManager Chain DhtAddress) (node : DhtAddress)
    (chain : Chain) : SameLocal manager (manager.pauseNeighbor node chain).1 := by
  unfold PlumtreeManager.pauseNeighbor
  split_ifs <;> exact ⟨rfl, rfl⟩

theorem sameLocal_resumeNeighbor (manager : PlumtreeManager Chain DhtAddress) (node : DhtAddress)
    (chain : Chain) (fromTimestamp : ℤ) :
    SameLocal manager (manager.resumeNeighbor node chain fromTimestamp).1 := by
  unfold PlumtreeManager.resumeNeighbor
  split_ifs <;> exact ⟨rfl, rfl⟩

theorem sameLocal_sendStreamMessage (manager : PlumtreeManager Chain DhtAddress)
    (msg : MessageID Chain) (previousNode : DhtAddress) (isNew : Bool) :
    SameLocal manager (manager.sendStreamMessage msg previousNode isNew).1 := by
  unfold PlumtreeManager.sendStreamMessage
  split_ifs
  · exact ⟨rfl, rfl⟩
  · exact sameLocal_pauseNeighbor manager previousNode msg.messageChainId

theorem sameLocal_onMetadata (manager : PlumtreeManager Chain DhtAddress) (msg : MessageID Chain)
    (previousNode : DhtAddress) : SameLocal manager (manager.onMetadata msg previousNode).1 := by
  unfold PlumtreeManager.onMetadata
  dsimp only
  split_ifs
  · exact sameLocal_resumeNeighbor _ previousNode msg.messageChainId _
  · exact ⟨rfl, rfl⟩
  · exact ⟨rfl, rfl⟩

theorem sameLocal_runImmediate (manager : PlumtreeManager Chain DhtAddress)
    (callback : Immediate Chain DhtAddress) :
    SameLocal manager (manager.runImmediate callback).1 := by
  cases callback with
  | resumeNeighbor node chain => exact sameLocal_resumeNeighbor manager node chain _
  | sendMetadata node msg => exact ⟨rfl, rfl⟩
  | sendStreamMessage node msg => exact ⟨rfl, rfl⟩

omit [DecidableEq DhtAddress] in
theorem sameLocal_afterMetadata (manager : PlumtreeManager Chain DhtAddress) (chain : Chain) :
    SameLocal manager (manager.afterMetadata chain) := by
  unfold PlumtreeManager.afterMetadata
  split_ifs <;> exact ⟨rfl, rfl⟩

/-- A removed neighbour is no neighbour, and no messages are withheld from it any more. -/
theorem localPaused_removeNeighbor (manager : PlumtreeManager Chain DhtAddress)
    (nodeId : DhtAddress) :
    (∀ node, (manager.removeNeighbor nodeId).neighbors.has node = true ↔
      manager.neighbors.has node = true ∧ node ≠ nodeId) ∧
    ∀ node chain, (manager.removeNeighbor nodeId).localPausedNeighbors.isPaused node chain = true →
      manager.localPausedNeighbors.isPaused node chain = true ∧
        (manager.neighbors.has nodeId = true → node ≠ nodeId) := by
  unfold PlumtreeManager.removeNeighbor
  split_ifs with hhas
  · have hlocal : (PlumtreeManager.onNeighborRemoved
        { manager with neighbors := manager.neighbors.remove nodeId }
        nodeId).localPausedNeighbors = manager.localPausedNeighbors.deleteAll nodeId := by
      unfold PlumtreeManager.onNeighborRemoved
      dsimp only
      split_ifs <;> rfl
    refine ⟨fun node ↦ ?_, fun node chain hpaused ↦ ?_⟩
    · rw [(onNeighborRemoved_spec _ nodeId).1, NodeList.has_iff, NodeList.has_iff,
        NodeList.mem_getIds_remove]
    · rw [hlocal, PausedNeighbors.isPaused_deleteAll] at hpaused
      exact ⟨hpaused.1, fun _ ↦ hpaused.2⟩
  · refine ⟨fun node ↦ ⟨fun hnode ↦ ⟨hnode, ?_⟩, And.left⟩, fun node chain hpaused ↦ ?_⟩
    · rintro rfl
      exact hhas hnode
    · exact ⟨hpaused, fun hcontra ↦ absurd hcontra hhas⟩

/-- What a step of a node does to the neighbours from which it withholds messages: a pause that
arrives is added, a resume that arrives or a removal ends it, and any other step keeps them. -/
theorem step_localPaused {before after : PlumtreeManager Chain DhtAddress}
    {event : Event Chain DhtAddress} {sent : List (Sent Chain DhtAddress)}
    (hstep : Plumtree.step before event = some (after, sent)) :
    (∃ sender chain, event = .receive sender (.pauseNeighbor chain) ∧
      before.neighbors.has sender = true ∧ after.neighbors = before.neighbors ∧
      after.localPausedNeighbors = before.localPausedNeighbors.add sender chain) ∨
    (∃ sender fromTimestamp chain, event = .receive sender (.resumeNeighbor fromTimestamp chain) ∧
      after.neighbors = before.neighbors ∧
      after.localPausedNeighbors = before.localPausedNeighbors.delete sender chain) ∨
    (∃ nodeId, event = .removeNeighbor nodeId ∧
      (∀ node, after.neighbors.has node = true ↔
        before.neighbors.has node = true ∧ node ≠ nodeId) ∧
      ∀ node chain, after.localPausedNeighbors.isPaused node chain = true →
        before.localPausedNeighbors.isPaused node chain = true ∧
          (before.neighbors.has nodeId = true → node ≠ nodeId)) ∨
    (∃ nodeId, event = .addNeighbor nodeId ∧ after = before.addNeighbor nodeId) ∨
    ((∀ sender fromTimestamp chain,
        event ≠ .receive sender (.resumeNeighbor fromTimestamp chain)) ∧
      (∀ nodeId, event ≠ .removeNeighbor nodeId) ∧ SameLocal before after) := by
  cases event with
  | sendStreamMessage msg previousNode isNew =>
    rw [Plumtree.step, Option.some.injEq] at hstep
    have hsame := sameLocal_sendStreamMessage before msg previousNode isNew
    rw [hstep] at hsame
    exact Or.inr (Or.inr (Or.inr (Or.inr ⟨by rintro _ _ _ ⟨⟩, by rintro _ ⟨⟩, hsame⟩)))
  | addNeighbor nodeId =>
    rw [Plumtree.step, Option.some.injEq, Prod.mk.injEq] at hstep
    exact Or.inr (Or.inr (Or.inr (Or.inl ⟨nodeId, rfl, hstep.1.symm⟩)))
  | removeNeighbor nodeId =>
    rw [Plumtree.step, Option.some.injEq, Prod.mk.injEq] at hstep
    obtain ⟨rfl, -⟩ := hstep
    exact Or.inr (Or.inr (Or.inl ⟨nodeId, rfl, localPaused_removeNeighbor before nodeId⟩))
  | receive sender notification =>
    rw [Plumtree.step, Option.some.injEq] at hstep
    cases notification with
    | pauseNeighbor chain =>
      rw [PlumtreeManager.receive] at hstep
      split_ifs at hstep with hhas <;> rw [Prod.mk.injEq] at hstep <;> obtain ⟨rfl, -⟩ := hstep
      · exact Or.inl ⟨sender, chain, rfl, hhas, rfl, rfl⟩
      · exact Or.inr (Or.inr (Or.inr (Or.inr ⟨by rintro _ _ _ ⟨⟩, by rintro _ ⟨⟩, rfl, rfl⟩)))
    | resumeNeighbor fromTimestamp chain =>
      rw [PlumtreeManager.receive, Prod.mk.injEq] at hstep
      obtain ⟨rfl, -⟩ := hstep
      exact Or.inr (Or.inl ⟨sender, fromTimestamp, chain, rfl, rfl, rfl⟩)
    | sendMetadata msg =>
      have hsame := sameLocal_onMetadata before msg sender
      rw [PlumtreeManager.receive] at hstep
      rw [hstep] at hsame
      exact Or.inr (Or.inr (Or.inr (Or.inr ⟨by rintro _ _ _ ⟨⟩, by rintro _ ⟨⟩, hsame⟩)))
  | immediate =>
    simp only [Plumtree.step] at hstep
    split at hstep
    · cases hstep
    case _ callback rest hscheduled =>
      have hsame := sameLocal_runImmediate { before with scheduled := rest } callback
      rw [Option.some.injEq] at hstep
      rw [hstep] at hsame
      exact Or.inr (Or.inr (Or.inr (Or.inr ⟨by rintro _ _ _ ⟨⟩, by rintro _ ⟨⟩, hsame⟩)))
  | metadataHandled call =>
    simp only [Plumtree.step] at hstep
    obtain ⟨chain, -, heq⟩ := Option.map_eq_some_iff.mp hstep
    rw [Prod.mk.injEq] at heq
    obtain ⟨rfl, -⟩ := heq
    have hsame := sameLocal_afterMetadata
      { before with awaiting := before.awaiting.eraseIdx call } chain
    exact Or.inr (Or.inr (Or.inr (Or.inr ⟨by rintro _ _ _ ⟨⟩, by rintro _ ⟨⟩, hsame⟩)))

theorem WithholdsFromNeighbors.step {before after : PlumtreeManager Chain DhtAddress}
    {event : Event Chain DhtAddress} {sent : List (Sent Chain DhtAddress)}
    (hwithholds : WithholdsFromNeighbors before)
    (hstep : Plumtree.step before event = some (after, sent)) : WithholdsFromNeighbors after := by
  intro node chain hpaused
  rcases step_localPaused hstep with ⟨sender, other, -, hhas, hneighbors, hlocal⟩ |
    ⟨sender, fromTimestamp, other, -, hneighbors, hlocal⟩ | ⟨nodeId, -, hneighbors, hlocal⟩ |
    ⟨nodeId, -, rfl⟩ | ⟨-, -, hneighbors, hlocal⟩
  · rw [hlocal] at hpaused
    rw [hneighbors]
    rcases PausedNeighbors.isPaused_add hpaused with hold | ⟨rfl, -⟩
    · exact hwithholds node chain hold
    · exact hhas
  · rw [hlocal, PausedNeighbors.isPaused_delete] at hpaused
    rw [hneighbors]
    exact hwithholds node chain hpaused.1
  · obtain ⟨hold, hne⟩ := hlocal node chain hpaused
    have hhas := hwithholds node chain hold
    refine (hneighbors node).mpr ⟨hhas, ?_⟩
    rintro rfl
    exact hne hhas rfl
  · have hmem := NodeList.has_iff.mp (hwithholds node chain hpaused)
    exact NodeList.has_iff.mpr (NodeList.mem_getIds_add_of_mem hmem)
  · rw [hlocal] at hpaused
    rw [hneighbors]
    exact hwithholds node chain hpaused

/-- A node withholds a chain from a peer behind a step only if the step was the peer's pause, or if
it did before and the step was neither the peer's resume nor its removal. -/
theorem step_asHolder {before after : PlumtreeManager Chain DhtAddress}
    {event : Event Chain DhtAddress} {sent : List (Sent Chain DhtAddress)}
    (hwithholds : WithholdsFromNeighbors before)
    (hstep : Plumtree.step before event = some (after, sent)) {peer : DhtAddress} {chain : Chain}
    (hpaused : after.localPausedNeighbors.isPaused peer chain = true) :
    event = .receive peer (.pauseNeighbor chain) ∨
      (before.localPausedNeighbors.isPaused peer chain = true ∧ event ≠ .removeNeighbor peer ∧
        ∀ fromTimestamp, event ≠ .receive peer (.resumeNeighbor fromTimestamp chain)) := by
  rcases step_localPaused hstep with ⟨sender, other, rfl, -, -, hlocal⟩ |
    ⟨sender, fromTimestamp, other, rfl, -, hlocal⟩ | ⟨nodeId, rfl, -, hlocal⟩ |
    ⟨nodeId, rfl, rfl⟩ | ⟨hnotResume, hnotRemove, -, hlocal⟩
  · rw [hlocal] at hpaused
    rcases PausedNeighbors.isPaused_add hpaused with hold | ⟨rfl, rfl⟩
    · exact Or.inr ⟨hold, nofun, nofun⟩
    · exact Or.inl rfl
  · rw [hlocal, PausedNeighbors.isPaused_delete] at hpaused
    refine Or.inr ⟨hpaused.1, nofun, fun timestamp heq ↦ ?_⟩
    injection heq with hsender hnotification
    injection hnotification with _ hchain
    exact hpaused.2 ⟨hsender.symm, hchain.symm⟩
  · obtain ⟨hold, hne⟩ := hlocal peer chain hpaused
    refine Or.inr ⟨hold, fun heq ↦ ?_, nofun⟩
    injection heq with heq
    subst heq
    exact hne (hwithholds nodeId chain hold) rfl
  · exact Or.inr ⟨hpaused, nofun, nofun⟩
  · rw [hlocal] at hpaused
    exact Or.inr ⟨hpaused, hnotRemove peer, fun timestamp ↦ hnotResume peer timestamp chain⟩

/-! ### One direction between the nodes -/

/-- What a node knows of the pause of its peer, given the last effect that is in flight to the peer
and whether the peer withholds: a pause in flight is known, and a pause that was delivered is. -/
def Agreed (isNeighbor withheld known : Bool) (last : Option Effect) : Prop :=
  isNeighbor = true → (last = some .pauses → known = true) ∧
    (last = none → withheld = true → known = true)

/-- The last effect when more is sent. -/
theorem lastEffect_append (chain : Chain) (channel : List (InFlight Chain)) (peer : DhtAddress)
    (sent : List (Sent Chain DhtAddress)) :
    lastEffect chain (channel ++ notificationsTo peer sent) =
      (effectsTo peer chain sent).getLast?.or (lastEffect chain channel) := by
  rw [lastEffect, List.filterMap_append, List.getLast?_append]
  rfl

omit [DecidableEq DhtAddress] in
/-- The last effect when something else is first. -/
theorem lastEffect_cons (chain : Chain) (first : InFlight Chain) (rest : List (InFlight Chain)) :
    lastEffect chain (first :: rest) = (lastEffect chain rest).or (effect chain first) := by
  rw [lastEffect, lastEffect, ← List.singleton_append, List.filterMap_append,
    List.getLast?_append]
  cases heffect : effect chain first with
  | none => simp [heffect]
  | some value => simp [heffect]

/-- A step of the node that may have paused its peer. -/
theorem Agreed.pauser {before after : PlumtreeManager Chain DhtAddress}
    {event : Event Chain DhtAddress} {sent : List (Sent Chain DhtAddress)}
    (hinv : Plumtree.Invariant before) (hstep : Plumtree.step before event = some (after, sent))
    {peer : DhtAddress} {chain : Chain} {channel : List (InFlight Chain)} {withheld : Bool}
    (hagreed : Agreed (before.neighbors.has peer) withheld
      (before.remotePausedNeighbors.isPaused peer chain) (lastEffect chain channel))
    (hrejoins : event = .addNeighbor peer → before.neighbors.has peer = false →
      (before.neighbors.add peer).has peer = true →
      lastEffect chain channel ≠ some .pauses ∧
        (lastEffect chain channel = none → withheld = false)) :
    Agreed (after.neighbors.has peer) withheld (after.remotePausedNeighbors.isPaused peer chain)
      (lastEffect chain (channel ++ notificationsTo peer sent)) := by
  intro hneighbor
  rw [lastEffect_append]
  rcases step_asPauser hinv hstep peer chain with ⟨hnone, hkeeps, hbefore⟩ | ⟨hpauses, hknown⟩ |
    hresumes | hgone | ⟨heq, hnew, hadded, hnone⟩
  · rw [hnone]
    obtain ⟨hpauses, hwithheld⟩ := hagreed (hbefore hneighbor)
    exact ⟨fun hlast ↦ hkeeps (hpauses hlast),
      fun hlast hheld ↦ hkeeps (hwithheld hlast hheld)⟩
  · exact ⟨fun _ ↦ hknown, fun _ _ ↦ hknown⟩
  · rw [hresumes]
    exact ⟨nofun, nofun⟩
  · rw [hgone] at hneighbor
    cases hneighbor
  · rw [hnone]
    obtain ⟨hnotPauses, hfree⟩ := hrejoins heq hnew hadded
    refine ⟨fun hlast ↦ absurd hlast hnotPauses, fun hlast hheld ↦ ?_⟩
    rw [hfree hlast] at hheld
    cases hheld

/-- A step of the node that may withhold from its peer, other than a delivery from it. -/
theorem Agreed.holder {before after : PlumtreeManager Chain DhtAddress}
    {event : Event Chain DhtAddress} {sent : List (Sent Chain DhtAddress)}
    (hwithholds : WithholdsFromNeighbors before)
    (hstep : Plumtree.step before event = some (after, sent)) {peer : DhtAddress}
    (hfrom : isFrom peer event = false) {chain : Chain} {isNeighbor known : Bool}
    {last : Option Effect}
    (hagreed : Agreed isNeighbor (before.localPausedNeighbors.isPaused peer chain) known last) :
    Agreed isNeighbor (after.localPausedNeighbors.isPaused peer chain) known last := by
  intro hneighbor
  obtain ⟨hpauses, hwithheld⟩ := hagreed hneighbor
  refine ⟨hpauses, fun hlast hheld ↦ hwithheld hlast ?_⟩
  rcases step_asHolder hwithholds hstep hheld with rfl | ⟨hold, -⟩
  · simp [isFrom] at hfrom
  · exact hold

omit [DecidableEq Chain] [DecidableEq DhtAddress] in
/-- What was delivered when it arrived as a pause. -/
theorem eq_pause_of_deliveryOf {peer : DhtAddress} {first : InFlight Chain} {chain : Chain}
    (hpause : deliveryOf peer first = .receive peer (.pauseNeighbor chain)) :
    first = .notification (.pauseNeighbor chain) := by
  cases first with
  | notification notification =>
    injection hpause with _ heq
    rw [heq]
  | removal => cases hpause

omit [DecidableEq DhtAddress] in
/-- What ends a pause is a removal, or the resume of the chain. -/
theorem eq_of_effect_resumes {chain : Chain} {first : InFlight Chain}
    (heffect : effect chain first = some .resumes) :
    first = .removal ∨
      ∃ fromTimestamp, first = .notification (.resumeNeighbor fromTimestamp chain) := by
  match first, heffect with
  | .removal, _ => exact Or.inl rfl
  | .notification (.sendMetadata _), heffect => cases heffect
  | .notification (.pauseNeighbor other), heffect =>
    rw [effect] at heffect
    split_ifs at heffect
    cases heffect
  | .notification (.resumeNeighbor fromTimestamp other), heffect =>
    rw [effect] at heffect
    split_ifs at heffect with heq
    exact Or.inr ⟨fromTimestamp, by rw [heq]⟩

/-- A delivery to the node that may withhold from its peer. -/
theorem Agreed.deliver {before after : PlumtreeManager Chain DhtAddress}
    {sent : List (Sent Chain DhtAddress)} {peer : DhtAddress} {first : InFlight Chain}
    {rest : List (InFlight Chain)} (hwithholds : WithholdsFromNeighbors before)
    (hstep : Plumtree.step before (deliveryOf peer first) = some (after, sent)) {chain : Chain}
    {isNeighbor known : Bool}
    (hagreed : Agreed isNeighbor (before.localPausedNeighbors.isPaused peer chain) known
      (lastEffect chain (first :: rest))) :
    Agreed isNeighbor (after.localPausedNeighbors.isPaused peer chain) known
      (lastEffect chain rest) := by
  intro hneighbor
  obtain ⟨hpauses, hwithheld⟩ := hagreed hneighbor
  rw [lastEffect_cons] at hpauses hwithheld
  refine ⟨fun hlast ↦ hpauses (by rw [hlast, Option.some_or]), fun hlast hheld ↦ ?_⟩
  rw [hlast, Option.none_or] at hpauses hwithheld
  have hholder := step_asHolder hwithholds hstep hheld
  cases heffect : effect chain first with
  | none =>
    refine hwithheld heffect ?_
    rcases hholder with hpause | ⟨hold, -⟩
    · rw [eq_pause_of_deliveryOf hpause, effect, if_pos rfl] at heffect
      cases heffect
    · exact hold
  | some value =>
    cases value with
    | pauses => exact hpauses heffect
    | resumes =>
      exfalso
      rcases hholder with hpause | ⟨-, hnotRemove, hnotResume⟩
      · rw [eq_pause_of_deliveryOf hpause, effect, if_pos rfl] at heffect
        cases heffect
      · rcases eq_of_effect_resumes heffect with rfl | ⟨fromTimestamp, rfl⟩
        · exact hnotRemove rfl
        · exact hnotResume fromTimestamp rfl

/-! ### The invariant of the system -/

/-- What holds in every state of a run that meets the condition. -/
structure Invariant (ids : Side → DhtAddress) (system : System Chain DhtAddress) : Prop where
  managers : ∀ side, Plumtree.Invariant (system.node side)
  withholds : ∀ side, WithholdsFromNeighbors (system.node side)
  agreed : ∀ side chain, Agreed ((system.node side.other).neighbors.has (ids side))
    ((system.node side).localPausedNeighbors.isPaused (ids side.other) chain)
    ((system.node side.other).remotePausedNeighbors.isPaused (ids side) chain)
    (lastEffect chain (system.channel side))

/-- What a step of one node does to the system. -/
theorem act_eq_some {ids : Side → DhtAddress} {system after : System Chain DhtAddress}
    {side : Side} {event : Event Chain DhtAddress} (hact : act ids system side event = some after) :
    ∃ sent, Plumtree.step (system.node side) event = some (after.node side, sent) ∧
      after.node side.other = system.node side.other ∧
      after.channel side = system.channel side ∧
      after.channel side.other =
        system.channel side.other ++ notificationsTo (ids side.other) sent := by
  obtain ⟨⟨manager, sent⟩, hstep, rfl⟩ := Option.map_eq_some_iff.mp hact
  refine ⟨sent, ?_, ?_, ?_, ?_⟩
  · simp [hstep]
  · simp [side.other_ne]
  · simp [side.other_ne.symm]
  · simp

/-- Both sides of a system, given one of them. -/
theorem forall_side {property : Side → Prop} (side : Side) (hside : property side)
    (hother : property side.other) (which : Side) : property which := by
  rcases side.eq_or_eq_other which with rfl | rfl
  · exact hside
  · exact hother

/-- The invariant is kept by a step of one node, when it is kept in the direction in which the node
withholds. -/
theorem Invariant.act {ids : Side → DhtAddress} {system popped after : System Chain DhtAddress}
    {side : Side} {event : Event Chain DhtAddress} (hinv : Invariant ids system)
    (hnode : popped.node = system.node)
    (hchannel : popped.channel side.other = system.channel side.other)
    (hact : act ids popped side event = some after)
    (hrejoins : ∀ chain, event = .addNeighbor (ids side.other) →
      (system.node side).neighbors.has (ids side.other) = false →
      ((system.node side).neighbors.add (ids side.other)).has (ids side.other) = true →
      lastEffect chain (system.channel side.other) ≠ some .pauses ∧
        (lastEffect chain (system.channel side.other) = none →
          (system.node side.other).localPausedNeighbors.isPaused (ids side) chain = false))
    (hholder : ∀ sent, Plumtree.step (system.node side) event = some (after.node side, sent) →
      ∀ chain, Agreed ((system.node side.other).neighbors.has (ids side))
        ((after.node side).localPausedNeighbors.isPaused (ids side.other) chain)
        ((system.node side.other).remotePausedNeighbors.isPaused (ids side) chain)
        (lastEffect chain (popped.channel side))) : Invariant ids after := by
  obtain ⟨sent, hstep, hother, hside, hsent⟩ := act_eq_some hact
  rw [hnode] at hstep hother
  rw [hchannel] at hsent
  have hadvance : advance (system.node side) event = some (after.node side) := by
    rw [advance, hstep, Option.map_some]
  have hmanager := advance_invariant (hinv.managers side) hadvance
  refine ⟨?_, ?_, ?_⟩
  · refine forall_side side hmanager ?_
    rw [hother]
    exact hinv.managers side.other
  · refine forall_side side ((hinv.withholds side).step hstep) ?_
    rw [hother]
    exact hinv.withholds side.other
  · refine forall_side side (fun chain ↦ ?_) (fun chain ↦ ?_)
    · rw [hother, hside]
      exact hholder sent hstep chain
    · have hagreed := hinv.agreed side.other chain
      rw [Side.other_other] at hagreed ⊢
      rw [hother, hsent]
      exact hagreed.pauser (hinv.managers side) hstep (hrejoins chain)

/-- A step of the system that meets the condition keeps the invariant. -/
theorem step_invariant {ids : Side → DhtAddress} {system after : System Chain DhtAddress}
    {action : Action Chain DhtAddress} (hinv : Invariant ids system)
    (hrejoins : RejoinsUnpaused ids system action) (hstep : step ids system action = some after) :
    Invariant ids after := by
  cases action with
  | atNode side event =>
    simp only [step] at hstep
    split_ifs at hstep with hfrom
    rw [Bool.not_eq_true] at hfrom
    refine hinv.act rfl rfl hstep (fun chain heq hnew hadded ↦ ?_) (fun sent hsent chain ↦ ?_)
    · subst heq
      exact hrejoins rfl hnew hadded chain
    · exact (hinv.agreed side chain).holder (hinv.withholds side) hsent hfrom
  | deliver side =>
    simp only [step] at hstep
    split at hstep
    · cases hstep
    case _ first rest hchannel =>
      have hnode : ({ system with channel := Function.update system.channel side rest } :
          System Chain DhtAddress).node = system.node := rfl
      refine hinv.act hnode ?_ hstep (fun chain heq ↦ ?_) (fun sent hsent chain ↦ ?_)
      · exact Function.update_of_ne side.other_ne _ _
      · cases first <;> cases heq
      · have hagreed := hinv.agreed side chain
        rw [hchannel] at hagreed
        dsimp only
        rw [Function.update_self]
        exact hagreed.deliver (hinv.withholds side) hsent
  | sendRemoval side =>
    rw [step, Option.some.injEq] at hstep
    subst hstep
    refine ⟨hinv.managers, hinv.withholds, fun which chain ↦ ?_⟩
    by_cases heq : which = side.other
    · subst heq
      dsimp only
      rw [Function.update_self, lastEffect, List.filterMap_append, List.getLast?_append]
      exact fun _ ↦ ⟨nofun, nofun⟩
    · dsimp only
      rw [Function.update_of_ne heq]
      exact hinv.agreed which chain

theorem invariant_create (ids : Side → DhtAddress) (limits maxPausedNeighbors : Side → ℕ) :
    Invariant ids (System.create ids limits maxPausedNeighbors : System Chain DhtAddress) where
  managers := fun side ↦ Plumtree.invariant_create (ids side) (limits side)
    (maxPausedNeighbors side)
  withholds := fun _ _ _ hpaused ↦ absurd hpaused Bool.false_ne_true
  agreed := fun _ _ hneighbor ↦ absurd hneighbor Bool.false_ne_true

theorem Invariant.agreement {ids : Side → DhtAddress} {system : System Chain DhtAddress}
    (hinv : Invariant ids system) : Agreement ids system := by
  intro side chain _ hneighbor hwithheld
  obtain ⟨hpauses, hnone⟩ := hinv.agreed side chain hneighbor
  have hresumes : (system.node side.other).remotePausedNeighbors.isPaused (ids side) chain = true →
      ∀ fromTimestamp,
        ((system.node side.other).resumeNeighbor (ids side) chain fromTimestamp).2 =
          [.notification (ids side) (.resumeNeighbor fromTimestamp chain)] := by
    intro hknown fromTimestamp
    rw [PlumtreeManager.resumeNeighbor, if_pos hknown]
  cases hlast : lastEffect chain (system.channel side) with
  | none =>
    have hknown := hnone hlast hwithheld
    exact Or.inl ⟨hknown, hresumes hknown⟩
  | some value =>
    cases value with
    | pauses => exact Or.inl ⟨hpauses hlast, hresumes (hpauses hlast)⟩
    | resumes => exact Or.inr rfl

/-- Assumes: a run of two nodes in which a node adds the other one only when that one has no pause
left of it. In every state of the run, the nodes agree: what one of them withholds from the other
is known by that one to be paused, or the end of the pause is in flight. -/
theorem agreement_of_rejoinsUnpaused (ids : Side → DhtAddress)
    (limits maxPausedNeighbors : Side → ℕ) (system : System Chain DhtAddress)
    (hreachable : Transition.Reachable (step ids) (RejoinsUnpaused ids)
      (· = System.create ids limits maxPausedNeighbors) system) : Agreement ids system := by
  have hinv : Invariant ids system := by
    refine hreachable.invariant ?_ ?_
    · rintro system rfl
      exact invariant_create ids limits maxPausedNeighbors
    · intro system action after _ hinv hrejoins hstep
      exact step_invariant hinv hrejoins hstep
  exact hinv.agreement

/-- With finitely many chains the condition is decidable. -/
instance [Fintype Chain] (ids : Side → DhtAddress) (system : System Chain DhtAddress) :
    (action : Action Chain DhtAddress) → Decidable (RejoinsUnpaused ids system action)
  | .atNode side (.addNeighbor nodeId) =>
    inferInstanceAs (Decidable (nodeId = ids side.other →
      (system.node side).neighbors.has nodeId = false →
      ((system.node side).neighbors.add nodeId).has nodeId = true →
      ∀ chain, lastEffect chain (system.channel side.other) ≠ some .pauses ∧
        (lastEffect chain (system.channel side.other) = none →
          (system.node side.other).localPausedNeighbors.isPaused (ids side) chain = false)))
  | .atNode _ (.sendStreamMessage _ _ _) => isTrue trivial
  | .atNode _ (.removeNeighbor _) => isTrue trivial
  | .atNode _ (.receive _ _) => isTrue trivial
  | .atNode _ .immediate => isTrue trivial
  | .atNode _ (.metadataHandled _) => isTrue trivial
  | .deliver _ => isTrue trivial
  | .sendRemoval _ => isTrue trivial

/-- The ids of two nodes. -/
def twoIds : Side → ℕ
  | .first => 1
  | .second => 2

/-- Two new nodes with room for four neighbours and the default number of pauses. -/
def twoNodes : System (Fin 2) ℕ :=
  System.create twoIds (fun _ ↦ 4) fun _ ↦ maxPausedNeighborsDefault

local instance neZero_two : NeZero 2 := inferInstance

/-- The nodes become neighbours, the second one gets a duplicate from the first, and its pause is
delivered. -/
def pauseDelivered : List (Action (Fin 2) ℕ) :=
  [.atNode .first (.addNeighbor 2), .atNode .second (.addNeighbor 1),
    .atNode .second (.sendStreamMessage ⟨0, 10⟩ 1 false), .deliver .first]

/-- The second node removes the first, tells it so, adds it again when the notice has arrived, and
pauses it once more: the first withholds, and the second knows. -/
theorem readded_after_notice :
    ∃ system : System (Fin 2) ℕ,
      Transition.Reachable (step twoIds) (RejoinsUnpaused twoIds) (· = twoNodes) system ∧
      (system.node .first).localPausedNeighbors.isPaused 2 0 = true ∧
      Agreement twoIds system := by
  have hrun : (Transition.checkedRun (step twoIds)
      (fun system action ↦ decide (RejoinsUnpaused twoIds system action)) twoNodes
      (pauseDelivered ++ [.atNode .second (.removeNeighbor 1), .sendRemoval .second,
        .deliver .first] ++ pauseDelivered)).map
        (fun system ↦ (system.node .first).localPausedNeighbors.isPaused 2 0) = some true := by
    decide +kernel
  obtain ⟨system, hsystem, hwithheld⟩ := Option.map_eq_some_iff.mp hrun
  have hreachable : Transition.Reachable (step twoIds) (RejoinsUnpaused twoIds) (· = twoNodes)
      system :=
    .of_checkedRun _ (fun _ _ ↦ of_decide_eq_true) (.start rfl) hsystem
  exact ⟨system, hreachable, hwithheld, agreement_of_rejoinsUnpaused twoIds (fun _ ↦ 4)
    (fun _ ↦ maxPausedNeighborsDefault) system hreachable⟩

/-- The second node removes the first and adds it again: the first withholds its messages, the
second does not know it, and nothing is in flight. -/
theorem readded_neighbor_withholds :
    ∃ system : System (Fin 2) ℕ,
      Transition.Reachable (step twoIds) (fun _ _ ↦ True) (· = twoNodes) system ∧
      ¬Agreement twoIds system := by
  have hrun : (Transition.run (step twoIds) twoNodes
      (pauseDelivered ++ [.atNode .second (.removeNeighbor 1),
        .atNode .second (.addNeighbor 1)])).map
        (fun system ↦ ((system.node .first).neighbors.has 2,
          (system.node .second).neighbors.has 1,
          (system.node .first).localPausedNeighbors.isPaused 2 0,
          (system.node .second).remotePausedNeighbors.isPaused 1 0,
          lastEffect 0 (system.channel .first))) = some (true, true, true, false, none) := by
    decide +kernel
  obtain ⟨system, hsystem, hfacts⟩ := Option.map_eq_some_iff.mp hrun
  simp only [Prod.mk.injEq] at hfacts
  obtain ⟨hfirst, hsecond, hwithheld, hunknown, hlast⟩ := hfacts
  have hreachable : Transition.Reachable (step twoIds) (fun _ _ ↦ True) (· = twoNodes) system :=
    .of_run _ (fun _ _ _ ↦ trivial) (.start rfl) hsystem
  refine ⟨system, hreachable, fun hagreement ↦ ?_⟩
  rcases hagreement .first 0 hfirst hsecond hwithheld with ⟨hknown, -⟩ | hresumes
  · exact absurd (hknown.symm.trans hunknown) (by decide)
  · exact absurd (hresumes.symm.trans hlast) (by decide)

end PomboStorageNode.TrackerlessNetwork.PlumtreeAgreement
