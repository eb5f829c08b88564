import PomboStorageNode.TrackerlessNetwork.DuplicateMessageDetector
import PomboStorageNode.TrackerlessNetwork.Propagation
import PomboStorageNode.TrackerlessNetwork.ProxyClient

/-!
# A node of the content delivery layer

`ContentDeliveryLayerNode.ts` with `ContentDeliveryRpcLocal.ts`, for a node without plumtree: a
message that arrives is given to the duplicate detector of its chain, and a message that was not
seen is emitted and fed to the propagation, for the neighbours, the proxy connections and the
temporary connections of that moment. A message that the node publishes is emitted in any case.

Behind the detectors the node keeps a record of the past: the messages that were given to a detector
(`handled`) and those that were emitted (`emitted`). `Follows` relates the record to the detectors
when the messages are numbered as chains: each detector tracks the messages of its chain that were
handled, a message is emitted at most once, and a message that was handled is emitted unless it
came late or the detector had too many gaps.
-/

set_option autoImplicit false

namespace PomboStorageNode.TrackerlessNetwork.ContentDelivery

open Library DuplicateMessageDetector Propagation

/-! ### Messages -/

/-- `MessageID`, without the stream part, which is the same for all messages of a node. -/
structure MessageID where
  publisherId : String
  messageChainId : String
  timestamp : ℤ
  sequenceNumber : ℤ
  deriving DecidableEq

/-- `MessageRef`. -/
structure MessageRef where
  timestamp : ℤ
  sequenceNumber : ℤ
  deriving DecidableEq

/-- The body of a `StreamMessage`. -/
inductive Body
  | contentMessage (content : List UInt8)
  | groupKeyRequest (recipientId : String)
  | groupKeyResponse (recipientId : String)
  deriving DecidableEq

/-- What a `StreamMessage` carries behind its id. -/
structure Content where
  previousMessageRef : Option MessageRef
  body : Body
  deriving DecidableEq

/-- `StreamMessage`. -/
abbrev StreamMessage := Propagation.StreamMessage MessageID Content

/-- The key of the detector of a message. -/
def MessageID.detectorKey (messageId : MessageID) : String :=
  messageId.publisherId ++ "-" ++ messageId.messageChainId

/-- The default of `maxGapCount`. -/
def maxGapCount : ℕ := 10000

/-- The number pairs that a detector is called with. -/
def callFor (messageId : MessageID) (previousMessageRef : Option MessageRef) : Call ℤ :=
  ⟨previousMessageRef.map fun ref ↦ (ref.timestamp, ref.sequenceNumber),
    (messageId.timestamp, messageId.sequenceNumber)⟩

/-- `markAndCheckDuplicate`. -/
def markAndCheckDuplicate (duplicateDetectors : OrderedMap String (Detector ℤ))
    (currentMessage : MessageID) (previousMessageRef : Option MessageRef) :
    Except (MarkError ℤ) Bool × OrderedMap String (Detector ℤ) :=
  let detector := (duplicateDetectors.get? currentMessage.detectorKey).getD Detector.create
  let marked := mark maxGapCount detector (callFor currentMessage previousMessageRef)
  (marked.1, duplicateDetectors.set currentMessage.detectorKey marked.2)

/-! ### The node -/

/-- A connection of `ProxyConnectionRpcLocal`; the direction is from the client's point of view. -/
structure ProxyConnection where
  userId : String
  direction : Option ProxyConnections.ProxyDirection

variable {DhtAddress : Type*}

/-- The connections of a `ProxyConnectionRpcLocal`. -/
abbrev ProxyConnectionRpcLocal (DhtAddress : Type*) := OrderedMap DhtAddress ProxyConnection

/-- `getSubscribers` of the proxy connections. -/
def getSubscribers (connections : ProxyConnectionRpcLocal DhtAddress) : List DhtAddress :=
  (connections.filter fun entry ↦
    decide (entry.2.direction = none ∨ entry.2.direction = some .subscribe)).keys

/-- `getNodeIdsForUserId` of the proxy connections. -/
def getNodeIdsForUserId (connections : ProxyConnectionRpcLocal DhtAddress) (userId : String) :
    List DhtAddress :=
  (connections.filter fun entry ↦ decide (entry.2.userId = userId)).keys

/-- `getPropagationTargets` of the proxy connections. -/
def proxyTargets (connections : ProxyConnectionRpcLocal DhtAddress) (msg : StreamMessage) :
    List DhtAddress :=
  match msg.content.body with
  | .groupKeyRequest recipientId => getNodeIdsForUserId connections recipientId
  | _ => getSubscribers connections

/-- `ContentDeliveryLayerNode`, and, of the past, the messages that were given to a detector and
those that were emitted, the latest last. -/
structure Node (DhtAddress : Type*) where
  duplicateDetectors : OrderedMap String (Detector ℤ)
  neighbors : NodeList DhtAddress
  temporaryNodes : NodeList DhtAddress
  proxyConnections : Option (ProxyConnectionRpcLocal DhtAddress)
  propagation : Propagation.State MessageID Content DhtAddress
  handled : List StreamMessage
  emitted : List StreamMessage

namespace Node

section Steps

variable [DecidableEq DhtAddress]

/-- `getPropagationTargets`. -/
def getPropagationTargets (node : Node DhtAddress) (msg : StreamMessage) : List DhtAddress :=
  node.neighbors.getIds ++ (node.proxyConnections.elim [] fun connections ↦
    proxyTargets connections msg) ++ node.temporaryNodes.getIds

/-- The source that a message is not sent back to. -/
def sourceFor (node : Node DhtAddress) (previousNode : Option DhtAddress) : Option DhtAddress :=
  previousNode.filter fun previous ↦ !node.temporaryNodes.has previous

/-- The node after a message was given to its detector. -/
def marked (node : Node DhtAddress) (msg : StreamMessage) : Node DhtAddress :=
  { node with
    duplicateDetectors := (markAndCheckDuplicate node.duplicateDetectors msg.messageId
      msg.content.previousMessageRef).2
    handled := node.handled ++ [msg] }

/-- What the detector of a message answers. -/
def check (node : Node DhtAddress) (msg : StreamMessage) : Except (MarkError ℤ) Bool :=
  (markAndCheckDuplicate node.duplicateDetectors msg.messageId msg.content.previousMessageRef).1

/-- `broadcast` behind the check: the message is emitted and fed to the propagation. It is `none`
when an assertion of the propagation fails. -/
def emitAndFeed (options : Options) (node : Node DhtAddress) (now : ℤ) (msg : StreamMessage)
    (previousNode : Option DhtAddress) : Option (Node DhtAddress) :=
  (Propagation.step options node.propagation
    (.feedUnseenMessage now msg (node.getPropagationTargets msg) (node.sourceFor previousNode))).map
      fun propagation ↦
        { node with
          propagation := propagation
          emitted := node.emitted ++ [msg] }

/-- `broadcast` of a message of the node's own. -/
def broadcast (options : Options) (node : Node DhtAddress) (now : ℤ) (msg : StreamMessage) :
    Option (Node DhtAddress) :=
  match node.check msg with
  | .error _ => some (node.marked msg)
  | .ok _ => (node.marked msg).emitAndFeed options now msg none

/-- `sendStreamMessage`: a message arrives from another node. -/
def sendStreamMessage (options : Options) (node : Node DhtAddress) (now : ℤ) (msg : StreamMessage)
    (previousNode : DhtAddress) : Option (Node DhtAddress) :=
  match node.check msg with
  | .error _ => some (node.marked msg)
  | .ok false => some (node.marked msg)
  | .ok true => (node.marked msg).emitAndFeed options now msg (some previousNode)

/-- What can happen at a node apart from messages: its neighbours and its proxy and temporary
connections come and go, and its sends end. -/
inductive Change (DhtAddress : Type*)
  | nodeAdded (now : ℤ) (nodeId : DhtAddress)
  | nodeRemoved (nodeId : DhtAddress)
  | onLeaveNotice (remoteNodeId : DhtAddress)
  | onNodeDisconnected (nodeId : DhtAddress)
  | requestConnection (now : ℤ) (nodeId : DhtAddress) (connection : ProxyConnection)
  | openConnection (nodeId : DhtAddress)
  | closeConnection (nodeId : DhtAddress)
  | sendSucceeds (send : ℕ)
  | sendFails (send : ℕ)

/-- The node with another propagation, if there is one. -/
def propagate (options : Options) (node : Node DhtAddress)
    (event : Propagation.Event MessageID Content DhtAddress) : Option (Node DhtAddress) :=
  (Propagation.step options node.propagation event).map fun propagation ↦
    { node with propagation := propagation }

/-- The node after a change: a node that is new among the neighbours or that opens a proxy
connection is sent the messages of the propagation. -/
def change (options : Options) (node : Node DhtAddress) :
    Change DhtAddress → Option (Node DhtAddress)
  | .nodeAdded now nodeId =>
    let added := { node with neighbors := node.neighbors.add nodeId }
    if added.neighbors.has nodeId && !node.neighbors.has nodeId then
      added.propagate options (.onNeighborJoined now nodeId)
    else some added
  | .nodeRemoved nodeId => some { node with neighbors := node.neighbors.remove nodeId }
  | .onLeaveNotice remoteNodeId =>
    some
      { node with
        neighbors := node.neighbors.remove remoteNodeId
        proxyConnections := node.proxyConnections.map (·.delete remoteNodeId) }
  | .onNodeDisconnected nodeId =>
    if node.neighbors.has nodeId then
      some
        { node with
          neighbors := node.neighbors.remove nodeId
          temporaryNodes := node.temporaryNodes.remove nodeId }
    else some node
  | .requestConnection now nodeId connection =>
    node.proxyConnections.bind fun connections ↦
      { node with
        proxyConnections := some (connections.set nodeId connection) }.propagate options
          (.onNeighborJoined now nodeId)
  | .openConnection nodeId =>
    some { node with temporaryNodes := node.temporaryNodes.add nodeId }
  | .closeConnection nodeId =>
    some { node with temporaryNodes := node.temporaryNodes.remove nodeId }
  | .sendSucceeds send => node.propagate options (.sendSucceeds send)
  | .sendFails send => node.propagate options (.sendFails send)

/-- The change takes a node from the neighbours. -/
def removes : Change DhtAddress → Option DhtAddress
  | .nodeRemoved nodeId => some nodeId
  | .onLeaveNotice remoteNodeId => some remoteNodeId
  | .onNodeDisconnected nodeId => some nodeId
  | _ => none

end Steps

end Node

/-! ### Messages of chains -/

/-- The number pairs of a message. -/
def callOfMessage (msg : StreamMessage) : Call ℤ :=
  callFor msg.messageId msg.content.previousMessageRef

instance : DecidableEq (Call ℤ) := fun first second ↦
  decidable_of_iff (first.previousNumber = second.previousNumber ∧ first.number = second.number) <| by
    cases first
    cases second
    simp

/-- The numbers of a message, as the detectors compare them. -/
def numberOfMessage (msg : StreamMessage) : NumberPair ℤ :=
  NumberPair.finite (callOfMessage msg).number

/-- The message is the one at some index of its chain. -/
def IsOf (chains : String → List (ℤ × ℤ)) (msg : StreamMessage) : Prop :=
  ∃ index : Fin (chains msg.messageId.detectorKey).length,
    callOfMessage msg = callOf (chains msg.messageId.detectorKey) index

instance (chains : String → List (ℤ × ℤ)) (msg : StreamMessage) : Decidable (IsOf chains msg) :=
  inferInstanceAs (Decidable (∃ index : Fin (chains msg.messageId.detectorKey).length,
    callOfMessage msg = callOf (chains msg.messageId.detectorKey) index))

/-- A detector tracks the messages of a chain that were given to it; there is none before the first
of them. -/
def TracksChain (numbers : List (ℤ × ℤ)) (messages : List StreamMessage)
    (detector : Option (Detector ℤ)) : Prop :=
  ∃ delivered : List (Fin numbers.length),
    messages.map callOfMessage = delivered.map (callOf numbers) ∧
    match delivered with
    | [] => detector = none
    | first :: _ =>
      ∃ found, detector = some found ∧ Tracks maxGapCount numbers first delivered found

variable {msg : StreamMessage}

/-- A detector that has dropped no gap had dropped none before. -/
theorem dropped_of_mark {detector : Detector ℤ} {call : Call ℤ}
    (hdropped : (DuplicateMessageDetector.mark maxGapCount detector call).2.dropped = []) :
    detector.dropped = [] := by
  unfold DuplicateMessageDetector.mark markAndCheck at hdropped
  split_ifs at hdropped
  · exact hdropped
  · exact hdropped
  · split at hdropped
    · split at hdropped
      · split_ifs at hdropped <;> exact hdropped
      · exact hdropped
    · split at hdropped
      · exact hdropped
      · exact hdropped
      · unfold dropLowestGapIfOverMaxGapCount at hdropped
        split_ifs at hdropped
        · exact (List.append_eq_nil_iff.mp hdropped).1
        · exact hdropped

/-- Two messages of a chain with the same numbers are at the same index. -/
theorem eq_of_numberOf_eq {numbers : List (ℤ × ℤ)} (hascends : Ascends numbers)
    {first second : Fin numbers.length} (heq : numberOf numbers first = numberOf numbers second) :
    first = second := by
  rcases lt_trichotomy first second with hlt | hsame | hgt
  · exact absurd heq (hascends.lt_iff.mpr hlt).ne
  · exact hsame
  · exact absurd heq (hascends.lt_iff.mpr hgt).ne'

/-- The messages that were handled are at the indices that were delivered. -/
theorem exists_delivered {numbers : List (ℤ × ℤ)} {messages : List StreamMessage}
    {delivered : List (Fin numbers.length)}
    (hcalls : messages.map callOfMessage = delivered.map (callOf numbers)) :
    (∀ other ∈ messages, ∃ index ∈ delivered, numberOfMessage other = numberOf numbers index) ∧
      ∀ index ∈ delivered, ∃ other ∈ messages, numberOfMessage other = numberOf numbers index := by
  constructor
  · intro other hother
    have hmem : callOfMessage other ∈ delivered.map (callOf numbers) :=
      hcalls ▸ List.mem_map_of_mem hother
    obtain ⟨index, hindex, heq⟩ := List.mem_map.mp hmem
    exact ⟨index, hindex, by rw [numberOfMessage, ← heq]; rfl⟩
  · intro index hindex
    have hmem : callOf numbers index ∈ messages.map callOfMessage :=
      hcalls ▸ List.mem_map_of_mem hindex
    obtain ⟨other, hother, heq⟩ := List.mem_map.mp hmem
    exact ⟨other, hother, by rw [numberOfMessage, heq]; rfl⟩

/-- A message of its chain is given to a detector that tracks the chain: the detector answers and
tracks the chain with the message. The answer is `true` only for a message that it was not given
before, and for such a message when no gap was dropped and it is not older than the first one. -/
theorem TracksChain.mark {numbers : List (ℤ × ℤ)} (hascends : Ascends numbers)
    {messages : List StreamMessage} {detector : Option (Detector ℤ)}
    (htracks : TracksChain numbers messages detector) {index : Fin numbers.length}
    (hcall : callOfMessage msg = callOf numbers index) :
    ∃ value after,
      DuplicateMessageDetector.mark maxGapCount (detector.getD Detector.create)
        (callOfMessage msg) = (.ok value, after) ∧
      TracksChain numbers (messages ++ [msg]) (some after) ∧
      (value = true → ∀ other ∈ messages, numberOfMessage other ≠ numberOfMessage msg) ∧
      (after.dropped = [] →
        (∀ first, messages.head? = some first → numberOfMessage first ≤ numberOfMessage msg) →
        (∀ other ∈ messages, numberOfMessage other ≠ numberOfMessage msg) → value = true) := by
  have hmax : 1 ≤ maxGapCount := by decide
  have hnumber : numberOfMessage msg = numberOf numbers index := by
    rw [numberOfMessage, hcall]
    rfl
  obtain ⟨delivered, hcalls, hdetector⟩ := htracks
  rw [hcall, hnumber]
  cases delivered with
  | nil =>
    obtain ⟨after, hmark, hafter⟩ := tracks_first hascends hmax index
    have hnil : messages = [] := List.map_eq_nil_iff.mp hcalls
    subst hnil
    refine ⟨true, after, ?_, ⟨[index], ?_, after, rfl, hafter⟩, fun _ ↦ nofun, fun _ _ _ ↦ rfl⟩
    · rw [hdetector]
      exact hmark
    · simp [hcall]
  | cons first rest =>
    obtain ⟨found, rfl, hfound⟩ := hdetector
    obtain ⟨value, after, hmark, hvalue, hafter⟩ := hfound.deliver hascends hmax index
    obtain ⟨hmessage, hindex⟩ := exists_delivered hcalls
    refine ⟨value, after, hmark, ⟨(first :: rest) ++ [index], ?_, after, rfl, hafter⟩,
      fun htrue other hother heq ↦ ?_, fun hdropped hearly hfresh ↦ ?_⟩
    · rw [List.map_append, List.map_append, hcalls]
      simp [hcall]
    · obtain ⟨position, hposition, hsame⟩ := hmessage other hother
      rw [eq_of_numberOf_eq hascends (hsame.symm.trans heq)] at hposition
      exact (hfound.covered index (hvalue.mp htrue)).2 hposition
    · have hfreshIndex : index ∉ first :: rest := fun hmem ↦ by
        obtain ⟨other, hother, hsame⟩ := hindex index hmem
        exact hfresh other hother hsame
      have hle : first ≤ index := by
        cases messages with
        | nil => cases hcalls
        | cons head tail =>
          have hhead : callOfMessage head = callOf numbers first := (List.cons.inj hcalls).1
          have hnumbers := hearly head rfl
          rw [numberOfMessage, hhead] at hnumbers
          by_contra hgt
          exact (hascends.lt_iff.mpr (not_le.mp hgt)).not_ge hnumbers
      have hlt : first < index :=
        lt_of_le_of_ne hle fun heq ↦ hfreshIndex (heq ▸ List.mem_cons_self)
      have hnone : found.dropped = [] := by
        refine @dropped_of_mark found (callOf numbers index) ?_
        rw [hmark]
        exact hdropped
      refine hvalue.mpr ((hfound.missing index hlt hfreshIndex).resolve_right ?_)
      rintro ⟨gap, hgap, -⟩
      rw [hnone] at hgap
      cases hgap

namespace Node

/-! ### The record of a node -/

/-- The messages of a chain that were handled, the earliest first. -/
def handledOf (node : Node DhtAddress) (key : String) : List StreamMessage :=
  node.handled.filter fun msg ↦ decide (msg.messageId.detectorKey = key)

/-- The detector of the message never dropped a gap, and the message is not older than the first
one of its chain that was handled. -/
structure InTime (node : Node DhtAddress) (msg : StreamMessage) : Prop where
  kept : ∀ detector, node.duplicateDetectors.get? msg.messageId.detectorKey = some detector →
    detector.dropped = []
  early : ∀ first, (node.handledOf msg.messageId.detectorKey).head? = some first →
    numberOfMessage first ≤ numberOfMessage msg

/-- What a node keeps to when all messages are numbered as chains. -/
structure Follows (chains : String → List (ℤ × ℤ)) (node : Node DhtAddress) : Prop where
  tracks : ∀ key, TracksChain (chains key) (node.handledOf key) (node.duplicateDetectors.get? key)
  emitted : ∀ msg ∈ node.emitted, msg ∈ node.handled
  once : (node.emitted.map (·.messageId)).Nodup
  complete : ∀ msg ∈ node.handled, node.InTime msg →
    ∃ other ∈ node.emitted, other.messageId = msg.messageId

variable {chains : String → List (ℤ × ℤ)} {node : Node DhtAddress}

theorem handledOf_marked (node : Node DhtAddress) (msg : StreamMessage) (key : String) :
    (node.marked msg).handledOf key =
      if msg.messageId.detectorKey = key then node.handledOf key ++ [msg]
      else node.handledOf key := by
  unfold handledOf
  show (node.handled ++ [msg]).filter _ = _
  rw [List.filter_append, List.filter_singleton]
  split_ifs with heq <;> simp [heq]

/-- The detector that a message was given to, and the others. -/
theorem get?_duplicateDetectors_marked (node : Node DhtAddress) (msg : StreamMessage)
    (key : String) :
    (node.marked msg).duplicateDetectors.get? key =
      if msg.messageId.detectorKey = key then
        some (mark maxGapCount ((node.duplicateDetectors.get? key).getD Detector.create)
          (callOfMessage msg)).2
      else node.duplicateDetectors.get? key := by
  show (node.duplicateDetectors.set _ _).get? key = _
  split_ifs with heq
  · rw [← heq, OrderedMap.get?_set_self]
    rfl
  · rw [OrderedMap.get?_set_of_ne _ _ (Ne.symm heq)]

theorem check_eq (node : Node DhtAddress) (msg : StreamMessage) :
    node.check msg = (mark maxGapCount
      ((node.duplicateDetectors.get? msg.messageId.detectorKey).getD Detector.create)
      (callOfMessage msg)).1 := rfl

/-- What a node keeps to depends on its detectors and on the record of the past. -/
theorem Follows.congr {after : Node DhtAddress} (hfollows : node.Follows chains)
    (hdetectors : after.duplicateDetectors = node.duplicateDetectors)
    (hhandled : after.handled = node.handled) (hemitted : after.emitted = node.emitted) :
    after.Follows chains := by
  have hof : ∀ key, after.handledOf key = node.handledOf key := fun key ↦ by
    rw [handledOf, handledOf, hhandled]
  refine ⟨fun key ↦ ?_, ?_, hemitted ▸ hfollows.once, fun msg hmsg hinTime ↦ ?_⟩
  · rw [hof, hdetectors]
    exact hfollows.tracks key
  · rw [hemitted, hhandled]
    exact hfollows.emitted
  · rw [hemitted]
    exact hfollows.complete msg (hhandled ▸ hmsg)
      ⟨hdetectors ▸ hinTime.kept, fun first hfirst ↦ hinTime.early first (hof _ ▸ hfirst)⟩

/-- What a node learns from the detector of a message of its chain. -/
theorem Follows.check (hascends : ∀ key, Ascends (chains key)) (hfollows : node.Follows chains)
    (hof : IsOf chains msg) :
    ∃ value, node.check msg = .ok value ∧
      (∀ key, TracksChain (chains key) ((node.marked msg).handledOf key)
        ((node.marked msg).duplicateDetectors.get? key)) ∧
      (value = true → ∀ other ∈ node.handled, other.messageId ≠ msg.messageId) ∧
      ((node.marked msg).InTime msg → (∀ other ∈ node.handled,
        other.messageId.detectorKey = msg.messageId.detectorKey →
          numberOfMessage other ≠ numberOfMessage msg) → value = true) := by
  obtain ⟨index, hcall⟩ := hof
  obtain ⟨value, after, hmark, htracks, hfresh, hnew⟩ :=
    (hfollows.tracks msg.messageId.detectorKey).mark (hascends _) hcall
  refine ⟨value, by rw [check_eq, hmark], fun key ↦ ?_, fun htrue other hother heq ↦ ?_,
    fun hinTime hall ↦ ?_⟩
  · rw [handledOf_marked, get?_duplicateDetectors_marked]
    split_ifs with hkey
    · subst hkey
      rw [hmark]
      exact htracks
    · exact hfollows.tracks key
  · refine hfresh htrue other ?_ ?_
    · exact List.mem_filter.mpr ⟨hother, by simp [heq]⟩
    · simp only [numberOfMessage, callOfMessage, callFor, heq]
  · refine hnew (hinTime.kept after ?_) (fun first hfirst ↦ hinTime.early first ?_)
      fun other hother ↦ ?_
    · rw [get?_duplicateDetectors_marked, if_pos rfl, hmark]
    · rw [handledOf_marked, if_pos rfl, List.head?_append, hfirst]
      rfl
    · obtain ⟨hmem, hkey⟩ := List.mem_filter.mp hother
      exact hall other hmem (of_decide_eq_true hkey)

/-- A message that is in time after another one was handled was in time before. -/
theorem InTime.of_marked {other : StreamMessage} (hinTime : (node.marked msg).InTime other) :
    node.InTime other := by
  constructor
  · intro detector hdetector
    have hmarked := hinTime.kept
    rw [get?_duplicateDetectors_marked] at hmarked
    split_ifs at hmarked
    · exact dropped_of_mark (hdetector ▸ hmarked _ rfl)
    · exact hmarked detector hdetector
  · intro first hfirst
    refine hinTime.early first ?_
    rw [handledOf_marked]
    split_ifs
    · rw [List.head?_append, hfirst]
      rfl
    · exact hfirst

/-- Whether a message is in time depends on its id. -/
theorem InTime.congr {first second : StreamMessage} (hinTime : node.InTime first)
    (heq : first.messageId = second.messageId) : node.InTime second := by
  refine ⟨heq ▸ hinTime.kept, fun head hhead ↦ ?_⟩
  have hnumber : numberOfMessage second = numberOfMessage first := by
    simp only [numberOfMessage, callOfMessage, callFor, heq]
  rw [hnumber]
  exact hinTime.early head (heq ▸ hhead)

/-- A message that was not handled before is handled and emitted. -/
theorem Follows.emit (hascends : ∀ key, Ascends (chains key)) (hfollows : node.Follows chains)
    (hof : IsOf chains msg) (hfresh : ∀ other ∈ node.handled, other.messageId ≠ msg.messageId)
    {after : Node DhtAddress} (hdetectors : after.duplicateDetectors =
      (node.marked msg).duplicateDetectors) (hhandled : after.handled = (node.marked msg).handled)
    (hemitted : after.emitted = node.emitted ++ [msg]) : after.Follows chains := by
  obtain ⟨value, -, htracks, -, -⟩ := hfollows.check hascends hof
  have hof : ∀ key, after.handledOf key = (node.marked msg).handledOf key := fun key ↦ by
    rw [handledOf, handledOf, hhandled]
  have hmarked : (node.marked msg).handled = node.handled ++ [msg] := rfl
  refine ⟨fun key ↦ ?_, fun other hother ↦ ?_, ?_, fun other hother hinTime ↦ ?_⟩
  · rw [hof, hdetectors]
    exact htracks key
  · rw [hemitted] at hother
    rw [hhandled, hmarked]
    rcases List.mem_append.mp hother with hold | hnew
    · exact List.mem_append_left _ (hfollows.emitted other hold)
    · exact List.mem_append_right _ hnew
  · rw [hemitted, List.map_append, List.nodup_append]
    refine ⟨hfollows.once, List.nodup_singleton _, ?_⟩
    rintro first hfirst second hsecond rfl
    obtain ⟨other, hother, rfl⟩ := List.mem_map.mp hfirst
    rw [List.map_singleton, List.mem_singleton] at hsecond
    exact hfresh other (hfollows.emitted other hother) hsecond
  · rw [hhandled, hmarked] at hother
    rw [hemitted]
    rcases List.mem_append.mp hother with hold | hnew
    · have hbefore : (node.marked msg).InTime other :=
        ⟨hdetectors ▸ hinTime.kept, fun first hfirst ↦ hinTime.early first (hof _ ▸ hfirst)⟩
      obtain ⟨found, hfound, heq⟩ := hfollows.complete other hold hbefore.of_marked
      exact ⟨found, List.mem_append_left _ hfound, heq⟩
    · rw [List.mem_singleton.mp hnew]
      exact ⟨msg, List.mem_append_right _ (List.mem_singleton.mpr rfl), rfl⟩

/-- A message whose detector answers `false` is handled only. Assumes: two messages of a chain with
the same numbers have the same id. -/
theorem Follows.skip (hascends : ∀ key, Ascends (chains key)) (hfollows : node.Follows chains)
    (hof : IsOf chains msg) (hcheck : node.check msg = .ok false)
    (hsame : ∀ other ∈ node.handled, other.messageId.detectorKey = msg.messageId.detectorKey →
      numberOfMessage other = numberOfMessage msg → other.messageId = msg.messageId) :
    (node.marked msg).Follows chains := by
  obtain ⟨value, hvalue, htracks, -, hnew⟩ := hfollows.check hascends hof
  rw [hcheck, Except.ok.injEq] at hvalue
  subst hvalue
  refine ⟨htracks, fun other hother ↦ ?_, hfollows.once, fun other hother hinTime ↦ ?_⟩
  · exact List.mem_append_left _ (hfollows.emitted other hother)
  · rcases List.mem_append.mp hother with hold | hlast
    · exact hfollows.complete other hold hinTime.of_marked
    · rw [List.mem_singleton.mp hlast] at hinTime ⊢
      have hseen : ¬ ∀ other ∈ node.handled,
          other.messageId.detectorKey = msg.messageId.detectorKey →
            numberOfMessage other ≠ numberOfMessage msg :=
        fun hall ↦ Bool.false_ne_true (hnew hinTime hall)
      push Not at hseen
      obtain ⟨earlier, hearlier, hkey, hnumber⟩ := hseen
      have hid := hsame earlier hearlier hkey hnumber
      obtain ⟨found, hfound, heq⟩ :=
        hfollows.complete earlier hearlier (hinTime.of_marked.congr hid.symm)
      exact ⟨found, hfound, heq.trans hid⟩

/-! ### What a node sends -/

section Sends

/-- The message of a send, and where it goes. -/
def transmission (node : Node DhtAddress) (send : ℕ) : Option (StreamMessage × DhtAddress) :=
  node.propagation.sends[send]?.bind fun entry ↦
    node.propagation.tasks[entry.task]?.map fun task ↦ (task.message, entry.neighborId)

theorem transmission_eq_some {send : ℕ} {neighborId : DhtAddress} :
    node.transmission send = some (msg, neighborId) ↔
      ∃ entry task, node.propagation.sends[send]? = some entry ∧
        node.propagation.tasks[entry.task]? = some task ∧ task.message = msg ∧
        entry.neighborId = neighborId := by
  simp only [transmission, Option.bind_eq_some_iff, Option.map_eq_some_iff, Prod.mk.injEq]
  exact ⟨fun ⟨entry, hentry, task, htask, hsame⟩ ↦ ⟨entry, task, hentry, htask, hsame⟩,
    fun ⟨entry, task, hentry, htask, hsame⟩ ↦ ⟨entry, hentry, task, htask, hsame⟩⟩

variable {options : Options} {after : Node DhtAddress}

/-- The propagation of a node is as its runs leave it, and it was fed with emitted messages. -/
structure SendsEmitted (options : Options) (node : Node DhtAddress) : Prop where
  propagation : Propagation.Invariant options node.propagation
  emitted : ∀ task ∈ node.propagation.tasks, task.message ∈ node.emitted

/-- Only emitted messages are sent. -/
theorem SendsEmitted.of_transmission (hsends : node.SendsEmitted options) {send : ℕ}
    {neighborId : DhtAddress} (hsend : node.transmission send = some (msg, neighborId)) :
    msg ∈ node.emitted := by
  obtain ⟨entry, task, -, htask, rfl, -⟩ := transmission_eq_some.mp hsend
  exact hsends.emitted task (List.mem_of_getElem? htask)

variable [DecidableEq DhtAddress]

/-- A step of the propagation keeps what was sent. -/
theorem transmission_of_step {event : Propagation.Event MessageID Content DhtAddress}
    (hinv : Propagation.Invariant options node.propagation)
    (hstep : Propagation.step options node.propagation event = some after.propagation) {send : ℕ}
    {neighborId : DhtAddress} (hsend : node.transmission send = some (msg, neighborId)) :
    after.transmission send = some (msg, neighborId) := by
  obtain ⟨entry, task, hentry, htask, rfl, rfl⟩ := transmission_eq_some.mp hsend
  obtain ⟨hfeeds, hkept⟩ := step_keeps hinv.sound hstep
  obtain ⟨laterEntry, hlaterEntry, hsame, hneighbor⟩ := hkept send entry hentry
  obtain ⟨laterTask, hlaterTask, hmessage, -⟩ := hfeeds entry.task task htask
  exact transmission_eq_some.mpr ⟨laterEntry, laterTask, hlaterEntry, hsame ▸ hlaterTask, hmessage,
    hneighbor⟩

/-- An emitted message is sent to all targets but the source, and everything that was sent stays
sent. -/
theorem emitAndFeed_spec {now : ℤ} {previousNode : Option DhtAddress}
    (hsends : node.SendsEmitted options)
    (hfeed : node.emitAndFeed options now msg previousNode = some after) :
    after.duplicateDetectors = node.duplicateDetectors ∧ after.neighbors = node.neighbors ∧
      after.handled = node.handled ∧ after.emitted = node.emitted ++ [msg] ∧
      after.SendsEmitted options ∧
      (∀ send sent, node.transmission send = some sent → after.transmission send = some sent) ∧
      ∀ neighborId ∈ node.getPropagationTargets msg, node.sourceFor previousNode ≠ some neighborId →
        ∃ send, after.transmission send = some (msg, neighborId) := by
  obtain ⟨propagation, hstep, rfl⟩ := Option.map_eq_some_iff.mp hfeed
  have hinv := hsends.propagation
  refine ⟨rfl, rfl, rfl, rfl, ⟨step_invariant hinv hstep, fun task htask ↦ ?_⟩,
    fun send sent hsend ↦ transmission_of_step hinv hstep hsend,
    fun neighborId htarget hsource ↦ ?_⟩
  · simp only [Propagation.step] at hstep
    split_ifs at hstep
    obtain ⟨store, sent, -, rfl, -⟩ := feedUnseenMessage_eq_some hstep
    rcases List.mem_append.mp htask with hold | hnew
    · exact List.mem_append_left _ (hsends.emitted task hold)
    · rw [List.mem_singleton.mp hnew]
      exact List.mem_append_right _ (List.mem_singleton.mpr rfl)
  · simp only [Propagation.step] at hstep
    split_ifs at hstep
    have hmem := mem_sends_of_feedUnseenMessage hstep htarget hsource
    obtain ⟨store, sent, -, rfl, -⟩ := feedUnseenMessage_eq_some hstep
    obtain ⟨send, hsend⟩ := List.mem_iff_getElem?.mp hmem
    exact ⟨send, transmission_eq_some.mpr ⟨_, _, hsend, List.getElem?_concat_length, rfl, rfl⟩⟩

/-- A step of the propagation that feeds no message. -/
theorem propagate_spec {event : Propagation.Event MessageID Content DhtAddress}
    (hsends : node.SendsEmitted options)
    (hevent : ∀ now message targets source, event ≠ .feedUnseenMessage now message targets source)
    (hstep : node.propagate options event = some after) :
    (∃ propagation, after = { node with propagation := propagation }) ∧
      after.SendsEmitted options ∧
      ∀ send sent, node.transmission send = some sent → after.transmission send = some sent := by
  obtain ⟨propagation, hnext, rfl⟩ := Option.map_eq_some_iff.mp hstep
  have hinv := hsends.propagation
  refine ⟨⟨propagation, rfl⟩, ⟨step_invariant hinv hnext, fun task htask ↦ ?_⟩,
    fun send sent hsend ↦ transmission_of_step hinv hnext hsend⟩
  obtain ⟨index, hindex⟩ := List.mem_iff_getElem?.mp htask
  obtain ⟨old, hold, hmessage⟩ := exists_old_task hevent hnext hindex
  exact hmessage ▸ hsends.emitted old (List.mem_of_getElem? hold)

/-- A change leaves the record of the past and what was sent, and it takes no node from the
neighbours but the one that it removes. -/
theorem change_spec {change : Change DhtAddress} (hsends : node.SendsEmitted options)
    (hchange : node.change options change = some after) :
    after.duplicateDetectors = node.duplicateDetectors ∧ after.handled = node.handled ∧
      after.emitted = node.emitted ∧ after.SendsEmitted options ∧
      (∀ send sent, node.transmission send = some sent → after.transmission send = some sent) ∧
      ∀ nodeId ∈ node.neighbors.getIds, removes change ≠ some nodeId →
        nodeId ∈ after.neighbors.getIds := by
  -- Steps of the propagation keep the lists of the nodes; the other changes keep the propagation.
  have hpropagate : ∀ {first : Node DhtAddress} {event}, first.propagate options event = some after →
      first.propagation = node.propagation → first.emitted = node.emitted →
      (∀ now message targets source, event ≠ .feedUnseenMessage now message targets source) →
      (∃ propagation, after = { first with propagation := propagation }) ∧
        after.SendsEmitted options ∧
        ∀ send sent, node.transmission send = some sent → after.transmission send = some sent := by
    intro first event hstep hsame hemitted hevent
    have hfirst : first.SendsEmitted options :=
      ⟨hsame ▸ hsends.propagation, hsame ▸ hemitted ▸ hsends.emitted⟩
    obtain ⟨hafter, hsends, hkept⟩ := propagate_spec hfirst hevent hstep
    refine ⟨hafter, hsends, fun send sent hsend ↦ hkept send sent ?_⟩
    rw [← hsend, transmission, transmission, hsame]
  have hkeep : ∀ send sent, node.transmission send = some sent →
      node.transmission send = some sent := fun _ _ ↦ id
  cases change with
  | nodeAdded now nodeId =>
    simp only [Node.change] at hchange
    split_ifs at hchange
    · obtain ⟨⟨propagation, rfl⟩, hsends, hkept⟩ := hpropagate hchange rfl rfl (by rintro _ _ _ _ ⟨⟩)
      exact ⟨rfl, rfl, rfl, hsends, hkept, fun other hother _ ↦
        NodeList.mem_getIds_add_of_mem hother⟩
    · rw [Option.some.injEq] at hchange
      subst hchange
      exact ⟨rfl, rfl, rfl, ⟨hsends.propagation, hsends.emitted⟩, hkeep, fun other hother _ ↦
        NodeList.mem_getIds_add_of_mem hother⟩
  | nodeRemoved nodeId =>
    simp only [Node.change, Option.some.injEq] at hchange
    subst hchange
    exact ⟨rfl, rfl, rfl, ⟨hsends.propagation, hsends.emitted⟩, hkeep, fun other hother hne ↦
      NodeList.mem_getIds_remove.mpr ⟨hother, fun heq ↦ hne (heq ▸ rfl)⟩⟩
  | onLeaveNotice remoteNodeId =>
    simp only [Node.change, Option.some.injEq] at hchange
    subst hchange
    exact ⟨rfl, rfl, rfl, ⟨hsends.propagation, hsends.emitted⟩, hkeep, fun other hother hne ↦
      NodeList.mem_getIds_remove.mpr ⟨hother, fun heq ↦ hne (heq ▸ rfl)⟩⟩
  | onNodeDisconnected nodeId =>
    simp only [Node.change] at hchange
    split_ifs at hchange
    · rw [Option.some.injEq] at hchange
      subst hchange
      exact ⟨rfl, rfl, rfl, ⟨hsends.propagation, hsends.emitted⟩, hkeep, fun other hother hne ↦
        NodeList.mem_getIds_remove.mpr ⟨hother, fun heq ↦ hne (heq ▸ rfl)⟩⟩
    · rw [Option.some.injEq] at hchange
      subst hchange
      exact ⟨rfl, rfl, rfl, hsends, hkeep, fun other hother _ ↦ hother⟩
  | requestConnection now nodeId connection =>
    simp only [Node.change, Option.bind_eq_some_iff] at hchange
    obtain ⟨connections, -, hstep⟩ := hchange
    obtain ⟨⟨propagation, rfl⟩, hsends, hkept⟩ := hpropagate hstep rfl rfl (by rintro _ _ _ _ ⟨⟩)
    exact ⟨rfl, rfl, rfl, hsends, hkept, fun other hother _ ↦ hother⟩
  | openConnection nodeId =>
    simp only [Node.change, Option.some.injEq] at hchange
    subst hchange
    exact ⟨rfl, rfl, rfl, ⟨hsends.propagation, hsends.emitted⟩, hkeep, fun _ hother _ ↦ hother⟩
  | closeConnection nodeId =>
    simp only [Node.change, Option.some.injEq] at hchange
    subst hchange
    exact ⟨rfl, rfl, rfl, ⟨hsends.propagation, hsends.emitted⟩, hkeep, fun _ hother _ ↦ hother⟩
  | sendSucceeds send =>
    obtain ⟨⟨propagation, rfl⟩, hsends, hkept⟩ := hpropagate hchange rfl rfl (by rintro _ _ _ _ ⟨⟩)
    exact ⟨rfl, rfl, rfl, hsends, hkept, fun _ hother _ ↦ hother⟩
  | sendFails send =>
    obtain ⟨⟨propagation, rfl⟩, hsends, hkept⟩ := hpropagate hchange rfl rfl (by rintro _ _ _ _ ⟨⟩)
    exact ⟨rfl, rfl, rfl, hsends, hkept, fun _ hother _ ↦ hother⟩

end Sends

end Node

end PomboStorageNode.TrackerlessNetwork.ContentDelivery
