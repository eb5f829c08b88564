import Mathlib.Logic.Function.Basic
import Mathlib.Logic.Relation
import PomboStorageNode.TrackerlessNetwork.ContentDeliveryLayerNode

/-!
# Dissemination of messages in the network of a stream part

Any number of nodes of one stream part. A node that publishes a message broadcasts it to its
neighbours, and a node that receives a message it has not seen broadcasts it on. The sends of a
node are delivered in any order, any number of times or never; in between the neighbours and the
other connections of every node change, and sends succeed or fail at their senders.

The messages of a publisher's chain are numbered as `MessageFactory.ts` does it, and no id is
published twice. Then no node emits a message twice, and it emits published messages only
(`emits_at_most_once`). When all sends were delivered, a message was emitted by every node on a path
of lasting links from its publisher, as long as it did not reach a node late, behind a later message
of its chain, and the node's detector did not run out of gaps (`emitted_of_path`).
-/

set_option autoImplicit false

namespace PomboStorageNode.TrackerlessNetwork.ContentDelivery

open Library DuplicateMessageDetector Propagation

/-- The nodes of the network, the sends that were delivered, each known by its node and its index
there, and the messages that were published, with their publishers. -/
structure Network (DhtAddress : Type*) where
  nodes : DhtAddress → Node DhtAddress
  delivered : List (DhtAddress × ℕ)
  published : List (DhtAddress × StreamMessage)

namespace Network

variable {DhtAddress : Type*} [DecidableEq DhtAddress]

/-- What can happen in the network: a node publishes a message, a send of a node is delivered, or a
node changes otherwise. -/
inductive Event (DhtAddress : Type*)
  | publish (publisher : DhtAddress) (now : ℤ) (msg : StreamMessage)
  | deliver (sender : DhtAddress) (send : ℕ) (now : ℤ)
  | change (node : DhtAddress) (change : Node.Change DhtAddress)

/-- The network with another node. -/
def update (network : Network DhtAddress) (address : DhtAddress) (node : Node DhtAddress) :
    Network DhtAddress :=
  { network with nodes := Function.update network.nodes address node }

/-- The step relation. -/
def step (options : Options) (network : Network DhtAddress) :
    Event DhtAddress → Option (Network DhtAddress)
  | .publish publisher now msg =>
    ((network.nodes publisher).broadcast options now msg).map fun node ↦
      { network.update publisher node with published := network.published ++ [(publisher, msg)] }
  | .deliver sender send now =>
    ((network.nodes sender).transmission send).bind fun sent ↦
      ((network.nodes sent.2).sendStreamMessage options now sent.1 sender).map fun node ↦
        { network.update sent.2 node with delivered := (sender, send) :: network.delivered }
  | .change node change =>
    ((network.nodes node).change options change).map fun after ↦ network.update node after

/-- What is published is a message of a chain with numbers that were not published before in the
chain, and no lasting link is taken away. -/
def Allowed (chains : String → List (ℤ × ℤ)) (links : DhtAddress → DhtAddress → Prop)
    (network : Network DhtAddress) : Event DhtAddress → Prop
  | .publish _ _ msg => IsOf chains msg ∧ ∀ entry ∈ network.published,
      entry.2.messageId.detectorKey = msg.messageId.detectorKey →
        numberOfMessage entry.2 ≠ numberOfMessage msg
  | .deliver _ _ _ => True
  | .change node change => ∀ neighbor, Node.removes change = some neighbor → ¬links node neighbor

/-- New nodes, among whose neighbours are those of the lasting links. -/
structure Start (links : DhtAddress → DhtAddress → Prop) (network : Network DhtAddress) :
    Prop where
  fresh : ∀ address, ∃ neighbors temporaryNodes proxyConnections now,
    network.nodes address = ⟨OrderedMap.empty, neighbors, temporaryNodes, proxyConnections,
      State.create now, [], []⟩
  linked : ∀ address neighbor, links address neighbor →
    neighbor ∈ (network.nodes address).neighbors.getIds
  delivered : network.delivered = []
  published : network.published = []

/-- Every send was delivered. -/
def Quiet (network : Network DhtAddress) : Prop :=
  ∀ address send sent, (network.nodes address).transmission send = some sent →
    (address, send) ∈ network.delivered

/-- What holds in every reachable state. -/
structure Invariant (options : Options) (chains : String → List (ℤ × ℤ))
    (links : DhtAddress → DhtAddress → Prop) (network : Network DhtAddress) : Prop where
  follows : ∀ address, (network.nodes address).Follows chains
  sends : ∀ address, (network.nodes address).SendsEmitted options
  linked : ∀ address neighbor, links address neighbor →
    neighbor ∈ (network.nodes address).neighbors.getIds
  handled : ∀ address, ∀ msg ∈ (network.nodes address).handled,
    ∃ publisher, (publisher, msg) ∈ network.published
  numbered : ∀ entry ∈ network.published, IsOf chains entry.2
  apart : ∀ first ∈ network.published, ∀ second ∈ network.published,
    first.2.messageId.detectorKey = second.2.messageId.detectorKey →
      numberOfMessage first.2 = numberOfMessage second.2 → first.2 = second.2
  published : ∀ entry ∈ network.published, entry.2 ∈ (network.nodes entry.1).emitted
  delivered : ∀ entry ∈ network.delivered, ∃ msg neighbor,
    (network.nodes entry.1).transmission entry.2 = some (msg, neighbor) ∧
      msg ∈ (network.nodes neighbor).handled
  forwarded : ∀ address, ∀ msg ∈ (network.nodes address).emitted, ∀ neighbor,
    links address neighbor →
      (∃ send, (network.nodes address).transmission send = some (msg, neighbor)) ∨
        msg ∈ (network.nodes neighbor).emitted

/-! ### Every step keeps the invariant -/

/-- The record of a node and what it sent only grow. -/
structure Grows (before after : Node DhtAddress) : Prop where
  handled : before.handled ⊆ after.handled
  emitted : before.emitted ⊆ after.emitted
  transmission : ∀ send sent, before.transmission send = some sent →
    after.transmission send = some sent

omit [DecidableEq DhtAddress] in
theorem Grows.refl (node : Node DhtAddress) : Grows node node :=
  ⟨List.Subset.refl _, List.Subset.refl _, fun _ _ ↦ id⟩

variable {options : Options} {chains : String → List (ℤ × ℤ)}
  {links : DhtAddress → DhtAddress → Prop} {network later : Network DhtAddress}
  {address : DhtAddress} {after : Node DhtAddress}

/-- Every node but the one that is replaced stays as it is. -/
theorem grows_update (hnodes : later.nodes = Function.update network.nodes address after)
    (hgrows : Grows (network.nodes address) after) (other : DhtAddress) :
    Grows (network.nodes other) (later.nodes other) := by
  rw [hnodes, Function.update_apply]
  split_ifs with heq
  · exact heq ▸ hgrows
  · exact Grows.refl _

/-- The invariant after one node was replaced by one that keeps to it. Assumes: what is new among
the published messages, the deliveries and the emitted messages keeps to the invariant. -/
theorem Invariant.of_update (hinv : Invariant options chains links network)
    (hnodes : later.nodes = Function.update network.nodes address after)
    (hgrows : Grows (network.nodes address) after) (hfollows : after.Follows chains)
    (hsends : after.SendsEmitted options)
    (hlinked : ∀ neighbor, links address neighbor → neighbor ∈ after.neighbors.getIds)
    (hpublished : network.published ⊆ later.published)
    (hnumbered : ∀ entry ∈ later.published, IsOf chains entry.2)
    (hapart : ∀ first ∈ later.published, ∀ second ∈ later.published,
      first.2.messageId.detectorKey = second.2.messageId.detectorKey →
        numberOfMessage first.2 = numberOfMessage second.2 → first.2 = second.2)
    (hhandled : ∀ msg ∈ after.handled, msg ∈ (network.nodes address).handled ∨
      ∃ publisher, (publisher, msg) ∈ later.published)
    (hnew : ∀ entry ∈ later.published, entry ∈ network.published ∨
      entry.2 ∈ (later.nodes entry.1).emitted)
    (hdelivered : ∀ entry ∈ later.delivered, entry ∈ network.delivered ∨ ∃ msg neighbor,
      (later.nodes entry.1).transmission entry.2 = some (msg, neighbor) ∧
        msg ∈ (later.nodes neighbor).handled)
    (hforwarded : ∀ msg ∈ after.emitted, msg ∈ (network.nodes address).emitted ∨
      ∀ neighbor, links address neighbor →
        (∃ send, after.transmission send = some (msg, neighbor)) ∨
          msg ∈ (later.nodes neighbor).emitted) :
    Invariant options chains links later := by
  have hall := grows_update hnodes hgrows
  have hcases : ∀ {property : DhtAddress → Node DhtAddress → Prop} (other : DhtAddress),
      property address after → property other (network.nodes other) →
        property other (later.nodes other) := by
    intro property other hafter hother
    rw [hnodes, Function.update_apply]
    split_ifs with heq
    · exact heq ▸ hafter
    · exact hother
  refine ⟨fun other ↦ ?_, fun other ↦ ?_, fun other ↦ ?_, fun other ↦ ?_, hnumbered, hapart,
    fun entry hentry ↦ ?_, fun entry hentry ↦ ?_, fun other ↦ ?_⟩
  · exact @hcases (fun _ node ↦ node.Follows chains) other hfollows (hinv.follows other)
  · exact @hcases (fun _ node ↦ node.SendsEmitted options) other hsends (hinv.sends other)
  · exact @hcases (fun place node ↦ ∀ neighbor, links place neighbor →
      neighbor ∈ node.neighbors.getIds) other hlinked (hinv.linked other)
  · have hold : ∀ place, ∀ msg ∈ (network.nodes place).handled,
        ∃ publisher, (publisher, msg) ∈ later.published := fun place msg hmsg ↦ by
      obtain ⟨publisher, hmem⟩ := hinv.handled place msg hmsg
      exact ⟨publisher, hpublished hmem⟩
    refine @hcases (fun _ node ↦ ∀ msg ∈ node.handled,
      ∃ publisher, (publisher, msg) ∈ later.published) other (fun msg hmsg ↦ ?_) (hold other)
    exact (hhandled msg hmsg).elim (hold address msg) id
  · rcases hnew entry hentry with hold | hemitted
    · exact (hall entry.1).emitted (hinv.published entry hold)
    · exact hemitted
  · rcases hdelivered entry hentry with hold | hlate
    · obtain ⟨msg, neighbor, hsend, hmem⟩ := hinv.delivered entry hold
      exact ⟨msg, neighbor, (hall entry.1).transmission _ _ hsend, (hall neighbor).handled hmem⟩
    · exact hlate
  · have hold : ∀ place, ∀ msg ∈ (network.nodes place).emitted, ∀ neighbor, links place neighbor →
        (∃ send, (later.nodes place).transmission send = some (msg, neighbor)) ∨
          msg ∈ (later.nodes neighbor).emitted := by
      intro place msg hmsg neighbor hlink
      rcases hinv.forwarded place msg hmsg neighbor hlink with ⟨send, hsend⟩ | hmem
      · exact Or.inl ⟨send, (hall place).transmission _ _ hsend⟩
      · exact Or.inr ((hall neighbor).emitted hmem)
    intro msg hmsg neighbor hlink
    by_cases heq : other = address
    · subst heq
      have hafter : later.nodes other = after := by rw [hnodes, Function.update_self]
      rw [hafter] at hmsg
      rcases hforwarded msg hmsg with hbefore | hfresh
      · exact hold other msg hbefore neighbor hlink
      · exact hafter ▸ hfresh neighbor hlink
    · have hsame : later.nodes other = network.nodes other := by
        rw [hnodes, Function.update_of_ne heq]
      exact hold other msg (hsame ▸ hmsg) neighbor hlink

/-- A node that emits a message that it did not handle before. -/
theorem Invariant.emit (hascends : ∀ key, Ascends (chains key))
    (hinv : Invariant options chains links network) {msg : StreamMessage} (hof : IsOf chains msg)
    (hfresh : ∀ other ∈ (network.nodes address).handled, other.messageId ≠ msg.messageId)
    {now : ℤ} {previousNode : Option DhtAddress}
    (hfeed : ((network.nodes address).marked msg).emitAndFeed options now msg previousNode =
      some after) :
    Grows (network.nodes address) after ∧ after.Follows chains ∧ after.SendsEmitted options ∧
      (∀ neighbor, links address neighbor → neighbor ∈ after.neighbors.getIds) ∧
      after.handled = (network.nodes address).handled ++ [msg] ∧
      after.emitted = (network.nodes address).emitted ++ [msg] ∧
      ∀ neighbor, links address neighbor → previousNode ≠ some neighbor →
        ∃ send, after.transmission send = some (msg, neighbor) := by
  have hsends : ((network.nodes address).marked msg).SendsEmitted options :=
    ⟨(hinv.sends address).propagation, (hinv.sends address).emitted⟩
  obtain ⟨hdetectors, hneighbors, hhandled, hemitted, hafter, hkept, htargets⟩ :=
    Node.emitAndFeed_spec hsends hfeed
  have hlinked := hinv.linked address
  refine ⟨⟨?_, ?_, hkept⟩, ?_, hafter, fun neighbor hlink ↦ ?_, hhandled, hemitted,
    fun neighbor hlink hprevious ↦ htargets neighbor ?_ fun heq ↦ hprevious ?_⟩
  · rw [hhandled]
    exact List.subset_append_left _ _
  · rw [hemitted]
    exact List.subset_append_left _ _
  · exact (hinv.follows address).emit hascends hof hfresh hdetectors hhandled hemitted
  · rw [hneighbors]
    exact hlinked neighbor hlink
  · exact List.mem_append_left _ (List.mem_append_left _ (hlinked neighbor hlink))
  · exact (Option.filter_eq_some_iff.mp heq).1

theorem Invariant.publish (hascends : ∀ key, Ascends (chains key))
    (hinv : Invariant options chains links network) {now : ℤ} {msg : StreamMessage}
    (hallowed : Allowed chains links network (.publish address now msg))
    (hstep : step options network (.publish address now msg) = some later) :
    Invariant options chains links later := by
  obtain ⟨hof, hapart⟩ := hallowed
  obtain ⟨after, hbroadcast, rfl⟩ := Option.map_eq_some_iff.mp hstep
  obtain ⟨value, hcheck, -⟩ := (hinv.follows address).check hascends hof
  have hfresh : ∀ other ∈ (network.nodes address).handled, other.messageId ≠ msg.messageId := by
    intro other hother heq
    obtain ⟨publisher, hmem⟩ := hinv.handled address other hother
    refine hapart _ hmem (congrArg MessageID.detectorKey heq) ?_
    simp only [numberOfMessage, callOfMessage, callFor, heq]
  simp only [Node.broadcast, hcheck] at hbroadcast
  obtain ⟨hgrows, hfollows, hsends, hlinked, hhandled, hemitted, hsent⟩ :=
    hinv.emit hascends hof hfresh hbroadcast
  have hself : (Function.update network.nodes address after) address = after :=
    Function.update_self _ _ _
  refine hinv.of_update rfl hgrows hfollows hsends hlinked (List.subset_append_left _ _) ?_ ?_ ?_ ?_
    (fun _ ↦ Or.inl) ?_
  · intro entry hentry
    rcases List.mem_append.mp hentry with hold | hnew
    · exact hinv.numbered entry hold
    · exact List.mem_singleton.mp hnew ▸ hof
  · intro first hfirst second hsecond hkey hnumber
    rcases List.mem_append.mp hfirst with hfirst | hfirst <;>
      rcases List.mem_append.mp hsecond with hsecond | hsecond
    · exact hinv.apart first hfirst second hsecond hkey hnumber
    · rw [List.mem_singleton.mp hsecond] at hkey hnumber
      exact absurd hnumber (hapart first hfirst hkey)
    · rw [List.mem_singleton.mp hfirst] at hkey hnumber
      exact absurd hnumber.symm (hapart second hsecond hkey.symm)
    · rw [List.mem_singleton.mp hfirst, List.mem_singleton.mp hsecond]
  · intro other hother
    rw [hhandled] at hother
    rcases List.mem_append.mp hother with hold | hnew
    · exact Or.inl hold
    · exact Or.inr ⟨address, List.mem_append_right _
        (List.mem_singleton.mpr (by rw [List.mem_singleton.mp hnew]))⟩
  · intro entry hentry
    rcases List.mem_append.mp hentry with hold | hnew
    · exact Or.inl hold
    · right
      rw [List.mem_singleton.mp hnew]
      show msg ∈ (Function.update network.nodes address after address).emitted
      rw [hself, hemitted]
      exact List.mem_append_right _ (List.mem_singleton.mpr rfl)
  · intro other hother
    rw [hemitted] at hother
    rcases List.mem_append.mp hother with hold | hnew
    · exact Or.inl hold
    · rw [List.mem_singleton.mp hnew]
      exact Or.inr fun neighbor hlink ↦ Or.inl (hsent neighbor hlink (by rintro ⟨⟩))

theorem Invariant.change (hinv : Invariant options chains links network)
    {change : Node.Change DhtAddress}
    (hallowed : Allowed chains links network (.change address change))
    (hstep : step options network (.change address change) = some later) :
    Invariant options chains links later := by
  obtain ⟨after, hchange, rfl⟩ := Option.map_eq_some_iff.mp hstep
  obtain ⟨hdetectors, hhandled, hemitted, hsends, hkept, hneighbors⟩ :=
    Node.change_spec (hinv.sends address) hchange
  have hgrows : Grows (network.nodes address) after :=
    ⟨hhandled ▸ List.Subset.refl _, hemitted ▸ List.Subset.refl _, hkept⟩
  refine hinv.of_update rfl hgrows ?_ hsends (fun neighbor hlink ↦ ?_) (List.Subset.refl _)
    hinv.numbered hinv.apart (fun msg hmsg ↦ Or.inl (hhandled ▸ hmsg)) (fun _ ↦ Or.inl)
    (fun _ ↦ Or.inl) fun msg hmsg ↦ Or.inl (hemitted ▸ hmsg)
  · exact (hinv.follows address).congr hdetectors hhandled hemitted
  · refine hneighbors neighbor (hinv.linked address neighbor hlink) fun heq ↦ ?_
    exact hallowed neighbor heq hlink

theorem Invariant.deliver (hascends : ∀ key, Ascends (chains key))
    (hinv : Invariant options chains links network) {send : ℕ} {now : ℤ}
    (hstep : step options network (.deliver address send now) = some later) :
    Invariant options chains links later := by
  obtain ⟨⟨msg, receiver⟩, hsend, hreceive⟩ := Option.bind_eq_some_iff.mp hstep
  obtain ⟨after, hafter, rfl⟩ := Option.map_eq_some_iff.mp hreceive
  dsimp only at hafter ⊢
  have hemittedBefore := (hinv.sends address).of_transmission hsend
  obtain ⟨publisher, hpublished⟩ :=
    hinv.handled address msg ((hinv.follows address).emitted msg hemittedBefore)
  have hof := hinv.numbered _ hpublished
  have hself : (Function.update network.nodes receiver after) receiver = after :=
    Function.update_self _ _ _
  -- The delivery is recorded, whatever the receiver does with the message.
  have hdelivered : Grows (network.nodes receiver) after → msg ∈ after.handled →
      ∀ entry ∈ (address, send) :: network.delivered, entry ∈ network.delivered ∨
        ∃ msg neighbor,
          (Function.update network.nodes receiver after entry.1).transmission entry.2 =
            some (msg, neighbor) ∧
          msg ∈ (Function.update network.nodes receiver after neighbor).handled := by
    intro hgrows hmem entry hentry
    rcases List.mem_cons.mp hentry with rfl | hold
    · refine Or.inr ⟨msg, receiver, ?_, by rw [hself]; exact hmem⟩
      exact (@grows_update _ _ network (network.update receiver after) receiver after rfl hgrows
        address).transmission _ _ hsend
    · exact Or.inl hold
  obtain ⟨value, hcheck, -, hunseen, -⟩ := (hinv.follows receiver).check hascends hof
  have hmarked : ((network.nodes receiver).marked msg).handled =
      (network.nodes receiver).handled ++ [msg] := rfl
  have hhandledMarked : ∀ other ∈ (network.nodes receiver).handled ++ [msg],
      other ∈ (network.nodes receiver).handled ∨
        ∃ publisher, (publisher, other) ∈ network.published := by
    intro other hother
    rcases List.mem_append.mp hother with hold | hnew
    · exact Or.inl hold
    · exact Or.inr ⟨publisher, List.mem_singleton.mp hnew ▸ hpublished⟩
  cases value with
  | false =>
    simp only [Node.sendStreamMessage, hcheck, Option.some.injEq] at hafter
    subst hafter
    have hgrows : Grows (network.nodes receiver) ((network.nodes receiver).marked msg) :=
      ⟨List.subset_append_left _ _, List.Subset.refl _, fun _ _ ↦ id⟩
    refine hinv.of_update rfl hgrows ?_ ⟨(hinv.sends receiver).propagation,
      (hinv.sends receiver).emitted⟩ (hinv.linked receiver) (List.Subset.refl _) hinv.numbered
      hinv.apart hhandledMarked (fun _ ↦ Or.inl)
      (hdelivered hgrows (List.mem_append_right _ List.mem_cons_self)) fun _ ↦ Or.inl
    refine (hinv.follows receiver).skip hascends hof hcheck fun other hother hkey hnumber ↦ ?_
    obtain ⟨otherPublisher, hmem⟩ := hinv.handled receiver other hother
    exact congrArg _ (hinv.apart _ hmem _ hpublished hkey hnumber)
  | true =>
    simp only [Node.sendStreamMessage, hcheck] at hafter
    obtain ⟨hgrows, hfollows, hsends, hlinked, hhandled, hemitted, hsent⟩ :=
      hinv.emit hascends hof (hunseen rfl) hafter
    refine hinv.of_update rfl hgrows hfollows hsends hlinked (List.Subset.refl _) hinv.numbered
      hinv.apart (hhandled ▸ hhandledMarked) (fun _ ↦ Or.inl) (hdelivered hgrows ?_)
      fun other hother ↦ ?_
    · rw [hhandled]
      exact List.mem_append_right _ List.mem_cons_self
    · rw [hemitted] at hother
      rcases List.mem_append.mp hother with hold | hnew
      · exact Or.inl hold
      · rw [List.mem_singleton.mp hnew]
        refine Or.inr fun neighbor hlink ↦ ?_
        by_cases heq : address = neighbor
        · right
          exact heq ▸ (@grows_update _ _ network (network.update receiver after) receiver after rfl
            hgrows address).emitted hemittedBefore
        · exact Or.inl (hsent neighbor hlink fun hsame ↦ heq (Option.some.inj hsame))

omit [DecidableEq DhtAddress] in
theorem invariant_start (hstart : Start links network) :
    Invariant options chains links network := by
  have hnode : ∀ other, (network.nodes other).handled = [] ∧ (network.nodes other).emitted = [] ∧
      (network.nodes other).duplicateDetectors = OrderedMap.empty ∧
      ∃ now, (network.nodes other).propagation = State.create now := by
    intro other
    obtain ⟨neighbors, temporaryNodes, proxyConnections, now, heq⟩ := hstart.fresh other
    rw [heq]
    exact ⟨rfl, rfl, rfl, now, rfl⟩
  refine ⟨fun other ↦ ?_, fun other ↦ ?_, hstart.linked, fun other msg hmsg ↦ ?_,
    hstart.published ▸ nofun, hstart.published ▸ nofun, hstart.published ▸ nofun,
    hstart.delivered ▸ nofun, fun other msg hmsg ↦ ?_⟩
  · obtain ⟨hhandled, hemitted, hdetectors, -⟩ := hnode other
    refine ⟨fun key ↦ ⟨[], ?_, ?_⟩, hemitted ▸ nofun, hemitted ▸ List.nodup_nil, hhandled ▸ nofun⟩
    · rw [Node.handledOf, hhandled]
      rfl
    · rw [hdetectors]
      rfl
  · obtain ⟨-, -, -, now, hpropagation⟩ := hnode other
    refine ⟨hpropagation ▸ invariant_create options now, fun task htask ↦ ?_⟩
    rw [hpropagation] at htask
    cases htask
  · rw [(hnode other).1] at hmsg
    cases hmsg
  · rw [(hnode other).2.1] at hmsg
    cases hmsg

/-- The invariant holds in every state of every run. -/
theorem invariant_of_reachable (hascends : ∀ key, Ascends (chains key))
    (hreachable : Transition.Reachable (step options) (Allowed chains links) (Start links)
      network) : Invariant options chains links network := by
  refine hreachable.invariant (fun state hstart ↦ invariant_start hstart)
    fun state event after _ hinv hallowed hstep ↦ ?_
  cases event with
  | publish publisher now msg => exact hinv.publish hascends hallowed hstep
  | deliver sender send now => exact hinv.deliver hascends hstep
  | change node change => exact hinv.change hallowed hstep

/-! ### What the nodes emit -/

/-- Whatever is lost, repeated or reordered and however the nodes come and go, no node emits two
messages with one id, and a message that a node emits was published. -/
theorem emits_at_most_once (hascends : ∀ key, Ascends (chains key))
    (hreachable : Transition.Reachable (step options) (Allowed chains fun _ _ ↦ False)
      (Start fun _ _ ↦ False) network) (address : DhtAddress) :
    ((network.nodes address).emitted.map (·.messageId)).Nodup ∧
      ∀ msg ∈ (network.nodes address).emitted,
        ∃ publisher, (publisher, msg) ∈ network.published := by
  have hinv := invariant_of_reachable hascends hreachable
  refine ⟨(hinv.follows address).once, fun msg hmsg ↦ ?_⟩
  exact hinv.handled address msg ((hinv.follows address).emitted msg hmsg)

/-- A link along which a message travels: it lasts, and the message comes in time at its end. -/
def Carries (links : DhtAddress → DhtAddress → Prop) (network : Network DhtAddress)
    (msg : StreamMessage) (address neighbor : DhtAddress) : Prop :=
  links address neighbor ∧ (network.nodes neighbor).InTime msg

omit [DecidableEq DhtAddress] in
/-- A message that goes over a link that carries it is emitted at both ends. -/
theorem Invariant.emitted_of_carries (hinv : Invariant options chains links network)
    (hquiet : network.Quiet) {msg : StreamMessage} {neighbor : DhtAddress}
    (hcarries : Carries links network msg address neighbor)
    (hemitted : msg ∈ (network.nodes address).emitted) :
    msg ∈ (network.nodes neighbor).emitted := by
  rcases hinv.forwarded address msg hemitted neighbor hcarries.1 with ⟨send, hsend⟩ | hmem
  · obtain ⟨other, receiver, hother, hhandled⟩ :=
      hinv.delivered _ (hquiet address send _ hsend)
    obtain ⟨rfl, rfl⟩ := Prod.mk.inj (Option.some.inj (hother.symm.trans hsend))
    obtain ⟨found, hfound, hid⟩ := (hinv.follows receiver).complete other hhandled hcarries.2
    obtain ⟨publisher, hpublished⟩ := hinv.handled receiver other hhandled
    obtain ⟨foundPublisher, hmem⟩ :=
      hinv.handled receiver found ((hinv.follows receiver).emitted found hfound)
    have hsame : found = other := by
      refine hinv.apart _ hmem _ hpublished (congrArg MessageID.detectorKey hid) ?_
      simp only [numberOfMessage, callOfMessage, callFor, hid]
    exact hsame ▸ hfound
  · exact hmem

/-- A send can be delivered at any later time: no assertion fails at the receiver. -/
theorem Invariant.deliver_isSome (hascends : ∀ key, Ascends (chains key))
    (hinv : Invariant options chains links network) {send : ℕ} {msg : StreamMessage}
    {receiver : DhtAddress} (hsend : (network.nodes address).transmission send =
      some (msg, receiver)) {now : ℤ} (hnow : (network.nodes receiver).propagation.now ≤ now) :
    (step options network (.deliver address send now)).isSome := by
  have hemitted := (hinv.sends address).of_transmission hsend
  obtain ⟨publisher, hpublished⟩ :=
    hinv.handled address msg ((hinv.follows address).emitted msg hemitted)
  obtain ⟨value, hcheck, -⟩ := (hinv.follows receiver).check hascends (hinv.numbered _ hpublished)
  simp only [step, hsend, Option.bind_some, Option.isSome_map, Node.sendStreamMessage, hcheck]
  cases value with
  | false => rfl
  | true =>
    simp only [Node.emitAndFeed, Option.isSome_map]
    exact ((hinv.sends receiver).propagation.propagates.accepts now hnow).1 _ _ _

/-- A send can be delivered at any later time; and when every send was delivered, a message was
emitted exactly once by every node on a path of lasting links from its publisher along which it
came in time. -/
theorem emitted_of_path (hascends : ∀ key, Ascends (chains key))
    (hreachable : Transition.Reachable (step options) (Allowed chains links) (Start links)
      network) :
    (∀ address send msg receiver now,
      (network.nodes address).transmission send = some (msg, receiver) →
        (network.nodes receiver).propagation.now ≤ now →
          (step options network (.deliver address send now)).isSome) ∧
    (network.Quiet → ∀ publisher msg, (publisher, msg) ∈ network.published →
      ∀ address, Relation.ReflTransGen (Carries links network msg) publisher address →
        (network.nodes address).emitted.count msg = 1) := by
  have hinv := invariant_of_reachable hascends hreachable
  refine ⟨fun address send msg receiver now hsend hnow ↦ hinv.deliver_isSome hascends hsend hnow,
    fun hquiet publisher msg hpublished address hpath ↦ ?_⟩
  have hemitted : msg ∈ (network.nodes address).emitted := by
    induction hpath with
    | refl => exact hinv.published _ hpublished
    | tail _ hcarries ih => exact hinv.emitted_of_carries hquiet hcarries ih
  exact List.count_eq_one_of_mem (hinv.follows address).once.of_map hemitted

/-! ### A run of three nodes -/

/-- Three nodes in a row that have not seen anything. -/
def row : Network (Fin 3) where
  nodes address := ⟨OrderedMap.empty,
    (if address = 1 then [0, 2] else [1]).foldl NodeList.add (NodeList.create address 4),
    NodeList.create address 10, none, State.create 0, [], []⟩
  delivered := []
  published := []

/-- The chain of the publisher of the run. -/
def chainOfTwo : String → List (ℤ × ℤ) := fun _ ↦ [(1, 0), (2, 0)]

/-- The links between the nodes of the row. -/
def rowLinks (address neighbor : Fin 3) : Prop :=
  neighbor ∈ (row.nodes address).neighbors.getIds

instance (address neighbor : Fin 3) : Decidable (rowLinks address neighbor) :=
  inferInstanceAs (Decidable (_ ∈ _))

/-- The first message of the chain. -/
def firstMessage : StreamMessage := ⟨⟨"0x1", "a", 1, 0⟩, ⟨none, .contentMessage []⟩⟩

/-- The first message is published and delivered along the row, to the middle node twice. -/
def rowEvents : List (Event (Fin 3)) :=
  [.publish 0 1 firstMessage, .deliver 0 0 2, .deliver 0 0 3, .deliver 1 0 4]

/-- `Allowed` for the row, evaluated. -/
def allowed? (network : Network (Fin 3)) : Event (Fin 3) → Bool
  | .publish _ _ msg => decide (IsOf chainOfTwo msg ∧ ∀ entry ∈ network.published,
      entry.2.messageId.detectorKey = msg.messageId.detectorKey →
        numberOfMessage entry.2 ≠ numberOfMessage msg)
  | .deliver _ _ _ => true
  | .change _ _ => false

theorem allowed_of_eval {links : Fin 3 → Fin 3 → Prop} (network : Network (Fin 3))
    (event : Event (Fin 3)) (heval : allowed? network event = true) :
    Allowed chainOfTwo links network event := by
  cases event with
  | publish publisher now msg =>
    rw [allowed?, decide_eq_true_eq] at heval
    exact heval
  | deliver sender send now => trivial
  | change node change => cases heval

theorem start_row {links : Fin 3 → Fin 3 → Prop}
    (hlinks : ∀ address neighbor, links address neighbor → rowLinks address neighbor) :
    Start links row :=
  ⟨fun _ ↦ ⟨_, _, _, 0, rfl⟩, hlinks, rfl, rfl⟩

theorem ascends_chainOfTwo (key : String) : Ascends (chainOfTwo key) := by
  unfold Ascends chainOfTwo
  decide

/-- In the run the middle node, which is delivered the message twice, emits it once. -/
theorem emits_at_most_once_row :
    ∃ network : Network (Fin 3), Transition.Reachable (step fireAndForget)
        (Allowed chainOfTwo fun _ _ ↦ False) (Start fun _ _ ↦ False) network ∧
      network.delivered = [(1, 0), (0, 0), (0, 0)] ∧
      ((network.nodes 1).emitted.map (·.messageId)).Nodup := by
  have hrun : (Transition.checkedRun (step fireAndForget) allowed? row rowEvents).map
      (·.delivered) = some [(1, 0), (0, 0), (0, 0)] := by
    decide +kernel
  obtain ⟨network, hnetwork, hdelivered⟩ := Option.map_eq_some_iff.mp hrun
  have hreachable : Transition.Reachable (step fireAndForget) (Allowed chainOfTwo fun _ _ ↦ False)
      (Start fun _ _ ↦ False) network :=
    .of_checkedRun rowEvents allowed_of_eval (.start (start_row fun _ _ ↦ False.elim)) hnetwork
  exact ⟨network, hreachable, hdelivered, (emits_at_most_once ascends_chainOfTwo hreachable 1).1⟩

/-- `Quiet`, evaluated. -/
def isQuiet (network : Network (Fin 3)) : Bool :=
  (List.finRange 3).all fun address ↦
    (List.range (network.nodes address).propagation.sends.length).all fun send ↦
      decide ((address, send) ∈ network.delivered)

/-- Whether a message is in time at every node, evaluated. -/
def isInTime (network : Network (Fin 3)) (msg : StreamMessage) : Bool :=
  (List.finRange 3).all fun address ↦
    ((network.nodes address).duplicateDetectors.get? msg.messageId.detectorKey).all
        (fun detector ↦ decide (detector.dropped = [])) &&
      ((network.nodes address).handledOf msg.messageId.detectorKey).head?.all
        fun first ↦ decide (numberOfMessage first ≤ numberOfMessage msg)

theorem quiet_of_eval {network : Network (Fin 3)} (heval : isQuiet network = true) :
    network.Quiet := by
  rintro address send ⟨msg, receiver⟩ hsend
  obtain ⟨entry, -, hentry, -⟩ := Node.transmission_eq_some.mp hsend
  have hlt := (List.getElem?_eq_some_iff.mp hentry).1
  have haddress := List.all_eq_true.mp heval address (List.mem_finRange address)
  exact of_decide_eq_true (List.all_eq_true.mp haddress send (List.mem_range.mpr hlt))

theorem inTime_of_eval {network : Network (Fin 3)} {msg : StreamMessage}
    (heval : isInTime network msg = true) (address : Fin 3) :
    (network.nodes address).InTime msg := by
  have haddress := List.all_eq_true.mp heval address (List.mem_finRange address)
  rw [Bool.and_eq_true] at haddress
  refine ⟨fun detector hdetector ↦ ?_, fun first hfirst ↦ ?_⟩
  · have hkept := haddress.1
    rw [hdetector, Option.all_some] at hkept
    exact of_decide_eq_true hkept
  · have hearly := haddress.2
    rw [hfirst, Option.all_some] at hearly
    exact of_decide_eq_true hearly

/-- In the run all sends are delivered in the end, and the last node of the row has emitted the
message once. -/
theorem emitted_of_path_row :
    ∃ network : Network (Fin 3),
      Transition.Reachable (step fireAndForget) (Allowed chainOfTwo rowLinks) (Start rowLinks)
        network ∧
      network.Quiet ∧ (network.nodes 2).emitted.count firstMessage = 1 := by
  have hrun : (Transition.checkedRun (step fireAndForget) allowed? row rowEvents).map
      (fun network ↦ (isQuiet network, isInTime network firstMessage, network.published)) =
        some (true, true, [(0, firstMessage)]) := by
    decide +kernel
  obtain ⟨network, hnetwork, hfacts⟩ := Option.map_eq_some_iff.mp hrun
  obtain ⟨hquiet, hrest⟩ := Prod.mk.inj hfacts
  obtain ⟨hinTime, hpublished⟩ := Prod.mk.inj hrest
  have hreachable : Transition.Reachable (step fireAndForget) (Allowed chainOfTwo rowLinks)
      (Start rowLinks) network :=
    .of_checkedRun rowEvents allowed_of_eval (.start (start_row fun _ _ ↦ id)) hnetwork
  refine ⟨network, hreachable, quiet_of_eval hquiet,
    (emitted_of_path ascends_chainOfTwo hreachable).2 (quiet_of_eval hquiet) 0 firstMessage
      (hpublished ▸ List.mem_singleton.mpr rfl) 2 ?_⟩
  have hfirst : Carries rowLinks network firstMessage 0 1 := ⟨by decide, inTime_of_eval hinTime 1⟩
  exact (Relation.ReflTransGen.single hfirst).tail ⟨by decide, inTime_of_eval hinTime 2⟩

end Network

end PomboStorageNode.TrackerlessNetwork.ContentDelivery
