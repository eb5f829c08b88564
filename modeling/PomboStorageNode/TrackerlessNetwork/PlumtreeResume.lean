import PomboStorageNode.TrackerlessNetwork.Plumtree
import Mathlib.Data.List.Induction

/-!
# What a resume brings

A node that pauses a neighbour misses the messages that only that neighbour has. It learns of them
from metadata, and when it has metadata of two messages ahead of those that it broadcast, it resumes
the sender, which sends what it has buffered since the timestamp that the resume names.

Messages of a chain are ordered by timestamp and sequence number, but both the resume and the
metadata are about timestamps. A message with the timestamp of the last one that the resuming node
broadcast, and a greater sequence number, is not sent (`resume_exact`), and metadata of such
messages does not make it resume anything, nor does that of two messages with one timestamp.

A history is a list of events of one node, with the messages themselves; `waiting_iff` says which
timestamps are ahead after it.
-/

set_option autoImplicit false

namespace PomboStorageNode.TrackerlessNetwork.PlumtreeResume

open Library Plumtree

/-! ### Histories -/

/-- A message with its place in its chain, of which the manager does not read the sequence number.
-/
structure Message (Chain : Type*) extends MessageID Chain where
  sequenceNumber : ℤ
  deriving DecidableEq

/-- The order of the messages of a chain. -/
def Message.Precedes {Chain : Type*} (first second : Message Chain) : Prop :=
  first.timestamp < second.timestamp ∨
    first.timestamp = second.timestamp ∧ first.sequenceNumber < second.sequenceNumber

/-- What can happen at a node: it broadcasts a message, metadata of a message arrives, the oldest
call of `onMetadata` for a chain comes back from its `await`, or another event. -/
inductive Event (Chain DhtAddress : Type*)
  | broadcast (msg : Message Chain) (previousNode : DhtAddress)
  | metadata (msg : Message Chain) (previousNode : DhtAddress)
  | metadataHandled (chain : Chain)
  | other (event : Plumtree.Event Chain DhtAddress)

variable {Chain DhtAddress : Type*}

/-- The events of the manager that have a constructor of their own. -/
def isNamed : Plumtree.Event Chain DhtAddress → Bool
  | .sendStreamMessage _ _ true => true
  | .receive _ (.sendMetadata _) => true
  | .metadataHandled _ => true
  | _ => false

variable [DecidableEq Chain] [DecidableEq DhtAddress]

/-- One step of a node. -/
def step (manager : PlumtreeManager Chain DhtAddress) :
    Event Chain DhtAddress → Option (PlumtreeManager Chain DhtAddress)
  | .broadcast msg previousNode =>
    Plumtree.advance manager (.sendStreamMessage msg.toMessageID previousNode true)
  | .metadata msg previousNode =>
    Plumtree.advance manager (.receive previousNode (.sendMetadata msg.toMessageID))
  | .metadataHandled chain =>
    Plumtree.advance manager (.metadataHandled (manager.awaiting.idxOf chain))
  | .other event => if isNamed event then none else Plumtree.advance manager event

/-- The manager after a history that starts with a new one. -/
def after (ownId : DhtAddress) (limit maxPausedNeighbors : ℕ)
    (history : List (Event Chain DhtAddress)) : Option (PlumtreeManager Chain DhtAddress) :=
  Transition.run step (PlumtreeManager.create ownId limit maxPausedNeighbors) history

/-- The message of a chain that an event broadcasts. -/
def broadcastOf (chain : Chain) : Event Chain DhtAddress → Option (Message Chain)
  | .broadcast msg _ => if msg.messageChainId = chain then some msg else none
  | _ => none

/-- The messages of a chain that a node has broadcast, the oldest broadcast first. -/
def broadcastsOn (chain : Chain) (history : List (Event Chain DhtAddress)) :
    List (Message Chain) :=
  history.filterMap (broadcastOf chain)

/-- The messages of a chain that are in the buffer of the node. -/
def buffered (chain : Chain) (history : List (Event Chain DhtAddress)) : List (Message Chain) :=
  (broadcastsOn chain history).drop ((broadcastsOn chain history).length - latestMessagesLimit)

/-- The timestamp of the last message of a chain that the node has broadcast, and zero before any.
-/
def latestTimestamp (chain : Chain) (history : List (Event Chain DhtAddress)) : ℤ :=
  match (broadcastsOn chain history).getLast? with
  | none => 0
  | some last => last.timestamp

/-- An event after which a timestamp is not ahead any more. -/
def Removes (chain : Chain) (timestamp : ℤ) : Event Chain DhtAddress → Prop
  | .broadcast msg _ => msg.messageChainId = chain ∧ msg.timestamp = timestamp
  | .metadataHandled other => other = chain
  | _ => False

/-- A timestamp is ahead of the messages: metadata with it came that was later than the last
message that the node had broadcast, and nothing has removed it since. -/
def Waiting (chain : Chain) (history : List (Event Chain DhtAddress)) (timestamp : ℤ) : Prop :=
  ∃ before msg previousNode rest, history = before ++ .metadata msg previousNode :: rest ∧
    msg.messageChainId = chain ∧ msg.timestamp = timestamp ∧
    latestTimestamp chain before < timestamp ∧ ∀ event ∈ rest, ¬ Removes chain timestamp event

/-! ### The state of a chain -/

/-- The buffer of a chain. -/
def buffer (manager : PlumtreeManager Chain DhtAddress) (chain : Chain) :
    List (MessageID Chain) :=
  (manager.latestMessages.get? chain).getD []

/-- The timestamps of a chain that are ahead of the messages. -/
def ahead (manager : PlumtreeManager Chain DhtAddress) (chain : Chain) : OrderedSet ℤ :=
  (manager.metadataTimestampsAheadOfRealData.get? chain).getD OrderedSet.empty

variable {manager next : PlumtreeManager Chain DhtAddress} {chain : Chain}
  {msg : Message Chain} {previousNode : DhtAddress}

omit [DecidableEq DhtAddress] in
theorem getLatestMessageTimestamp_eq :
    manager.getLatestMessageTimestamp chain =
      match (buffer manager chain).getLast? with
      | none => 0
      | some last => last.timestamp := by
  unfold PlumtreeManager.getLatestMessageTimestamp buffer
  cases manager.latestMessages.get? chain <;> rfl

/-- A change of the manager that leaves its messages and its metadata alone. -/
structure SameChains (manager next : PlumtreeManager Chain DhtAddress) : Prop where
  latestMessages : next.latestMessages = manager.latestMessages
  metadata : next.metadataTimestampsAheadOfRealData = manager.metadataTimestampsAheadOfRealData

omit [DecidableEq DhtAddress] in
theorem SameChains.buffer_eq (hsame : SameChains manager next) (chain : Chain) :
    buffer next chain = buffer manager chain := by
  unfold buffer
  rw [hsame.latestMessages]

omit [DecidableEq DhtAddress] in
theorem SameChains.ahead_eq (hsame : SameChains manager next) (chain : Chain) :
    ahead next chain = ahead manager chain := by
  unfold ahead
  rw [hsame.metadata]

theorem sameChains_pauseNeighbor (node : DhtAddress) (chain : Chain) :
    SameChains manager (manager.pauseNeighbor node chain).1 := by
  unfold PlumtreeManager.pauseNeighbor
  split_ifs <;> exact ⟨rfl, rfl⟩

theorem sameChains_resumeNeighbor (node : DhtAddress) (chain : Chain) (fromTimestamp : ℤ) :
    SameChains manager (manager.resumeNeighbor node chain fromTimestamp).1 := by
  unfold PlumtreeManager.resumeNeighbor
  split_ifs <;> exact ⟨rfl, rfl⟩

theorem sameChains_removeNeighbor (nodeId : DhtAddress) :
    SameChains manager (manager.removeNeighbor nodeId) := by
  unfold PlumtreeManager.removeNeighbor PlumtreeManager.onNeighborRemoved
  split_ifs
  · constructor <;> (dsimp only; split_ifs <;> rfl)
  · exact ⟨rfl, rfl⟩

theorem sameChains_runImmediate (manager : PlumtreeManager Chain DhtAddress)
    (callback : Immediate Chain DhtAddress) :
    SameChains manager (manager.runImmediate callback).1 := by
  cases callback with
  | resumeNeighbor node chain => exact sameChains_resumeNeighbor node chain _
  | sendMetadata node msg => exact ⟨rfl, rfl⟩
  | sendStreamMessage node msg => exact ⟨rfl, rfl⟩

/-- An event without a constructor of its own leaves the chains alone. -/
theorem sameChains_other {event : Plumtree.Event Chain DhtAddress}
    (hnamed : isNamed event = false) (hstep : Plumtree.advance manager event = some next) :
    SameChains manager next := by
  obtain ⟨result, hresult, rfl⟩ := Option.map_eq_some_iff.mp hstep
  cases event with
  | sendStreamMessage msg previousNode isNew =>
    cases isNew with
    | true => cases hnamed
    | false =>
      obtain rfl := Option.some.inj hresult
      exact sameChains_pauseNeighbor previousNode msg.messageChainId
  | addNeighbor nodeId =>
    obtain rfl := Option.some.inj hresult
    exact ⟨rfl, rfl⟩
  | removeNeighbor nodeId =>
    obtain rfl := Option.some.inj hresult
    exact sameChains_removeNeighbor nodeId
  | receive sender notification =>
    obtain rfl := Option.some.inj hresult
    cases notification with
    | pauseNeighbor chain =>
      show SameChains manager (ite _ _ _ : _ × _).1
      split_ifs <;> exact ⟨rfl, rfl⟩
    | resumeNeighbor fromTimestamp chain => exact ⟨rfl, rfl⟩
    | sendMetadata msg => cases hnamed
  | immediate =>
    unfold Plumtree.step at hresult
    cases hscheduled : manager.scheduled with
    | nil =>
      rw [hscheduled] at hresult
      cases hresult
    | cons callback rest =>
      rw [hscheduled] at hresult
      obtain rfl := Option.some.inj hresult
      have hsame := sameChains_runImmediate { manager with scheduled := rest } callback
      exact ⟨hsame.latestMessages, hsame.metadata⟩
  | metadataHandled call => cases hnamed

/-! ### What a step does to a chain -/

/-- A call of `onMetadata` issues the resume of the sender, which is what it awaits. -/
def IssuesResume (manager : PlumtreeManager Chain DhtAddress) (msg : Message Chain)
    (previousNode : DhtAddress) : Prop :=
  manager.awaiting.length < (manager.onMetadata msg.toMessageID previousNode).1.awaiting.length

theorem step_broadcast : step manager (.broadcast msg previousNode) =
    some (manager.broadcast msg.toMessageID previousNode) := rfl

theorem step_metadata : step manager (.metadata msg previousNode) =
    some (manager.onMetadata msg.toMessageID previousNode).1 := rfl

/-- The call that comes back is one for the chain. -/
theorem step_metadataHandled (hstep : step manager (.metadataHandled chain) = some next) :
    ∃ awaiting, next =
      PlumtreeManager.afterMetadata { manager with awaiting := awaiting } chain := by
  have hadvance : Plumtree.advance manager (.metadataHandled (manager.awaiting.idxOf chain)) =
    some next := hstep
  obtain ⟨result, hresult, rfl⟩ := Option.map_eq_some_iff.mp hadvance
  obtain ⟨found, hfound, rfl⟩ := Option.map_eq_some_iff.mp hresult
  obtain ⟨hindex, heq⟩ := List.getElem?_eq_some_iff.mp hfound
  rw [List.getElem_idxOf hindex] at heq
  obtain rfl := heq
  exact ⟨_, rfl⟩

theorem step_other {event : Plumtree.Event Chain DhtAddress}
    (hstep : step manager (.other event) = some next) : SameChains manager next := by
  unfold step at hstep
  dsimp only at hstep
  split_ifs at hstep with hnamed
  exact sameChains_other (Bool.eq_false_iff.mpr hnamed) hstep

theorem buffer_metadata (hstep : step manager (.metadata msg previousNode) = some next) :
    buffer next chain = buffer manager chain := by
  obtain rfl := Option.some.inj (step_metadata.symm.trans hstep)
  unfold PlumtreeManager.onMetadata
  dsimp only
  split_ifs
  · rw [(sameChains_resumeNeighbor previousNode _ _).buffer_eq]
    rfl
  · rfl
  · rfl

/-- A step appends the message that it broadcasts to the buffer of its chain, from which the oldest
message goes when it is full. -/
theorem buffer_step {event : Event Chain DhtAddress} (hstep : step manager event = some next) :
    buffer next chain = match broadcastOf chain event with
      | none => buffer manager chain
      | some msg =>
        if (buffer manager chain).length < latestMessagesLimit then
          buffer manager chain ++ [msg.toMessageID]
        else (buffer manager chain).drop 1 ++ [msg.toMessageID] := by
  cases event with
  | broadcast msg previousNode =>
    obtain rfl := Option.some.inj (step_broadcast.symm.trans hstep)
    by_cases hchain : msg.messageChainId = chain
    · subst hchain
      have hof : broadcastOf msg.messageChainId (Event.broadcast msg previousNode) = some msg :=
        if_pos rfl
      rw [hof, buffer, PlumtreeManager.broadcast]
      dsimp only
      rw [OrderedMap.get?_set_self]
      rfl
    · have hof : broadcastOf chain (Event.broadcast msg previousNode) = none := if_neg hchain
      rw [hof, buffer, PlumtreeManager.broadcast]
      dsimp only
      rw [OrderedMap.get?_set_of_ne _ _ (Ne.symm hchain)]
      rfl
  | metadata msg previousNode => exact buffer_metadata hstep
  | metadataHandled other =>
    obtain ⟨awaiting, rfl⟩ := step_metadataHandled hstep
    unfold PlumtreeManager.afterMetadata
    split_ifs <;> rfl
  | other event => exact (step_other hstep).buffer_eq chain

theorem metadataTimestamps_onMetadata :
    (manager.onMetadata msg.toMessageID previousNode).1.metadataTimestampsAheadOfRealData =
      if manager.getLatestMessageTimestamp msg.messageChainId < msg.timestamp then
        manager.metadataTimestampsAheadOfRealData.set msg.messageChainId
          ((ahead manager msg.messageChainId).add msg.timestamp)
      else manager.metadataTimestampsAheadOfRealData := by
  unfold PlumtreeManager.onMetadata
  dsimp only
  split_ifs
  · exact (sameChains_resumeNeighbor previousNode _ _).metadata
  · rfl
  · rfl

/-- `onMetadata` adds a timestamp that is later than that of the last message. -/
theorem ahead_metadata (hstep : step manager (.metadata msg previousNode) = some next) :
    ahead next chain =
      if msg.messageChainId = chain ∧ manager.getLatestMessageTimestamp chain < msg.timestamp then
        (ahead manager chain).add msg.timestamp
      else ahead manager chain := by
  obtain rfl := Option.some.inj (step_metadata.symm.trans hstep)
  rw [ahead, metadataTimestamps_onMetadata]
  by_cases hchain : msg.messageChainId = chain
  · subst hchain
    by_cases hlater : manager.getLatestMessageTimestamp msg.messageChainId < msg.timestamp
    · rw [if_pos hlater, if_pos ⟨rfl, hlater⟩, OrderedMap.get?_set_self]
      rfl
    · rw [if_neg hlater, if_neg fun hboth ↦ hlater hboth.2]
      rfl
  · rw [if_neg (c := _ ∧ _) fun hboth ↦ hchain hboth.1]
    split_ifs
    · rw [OrderedMap.get?_set_of_ne _ _ (Ne.symm hchain)]
      rfl
    · rfl

/-- `broadcast` removes the timestamp of its message. -/
theorem mem_ahead_broadcast (hstep : step manager (.broadcast msg previousNode) = some next)
    {timestamp : ℤ} : timestamp ∈ ahead next chain ↔ timestamp ∈ ahead manager chain ∧
      ¬ (msg.messageChainId = chain ∧ msg.timestamp = timestamp) := by
  obtain rfl := Option.some.inj (step_broadcast.symm.trans hstep)
  unfold PlumtreeManager.broadcast ahead
  dsimp only
  cases hget : manager.metadataTimestampsAheadOfRealData.get? msg.messageChainId with
  | none =>
    constructor
    · intro hmem
      refine ⟨hmem, ?_⟩
      rintro ⟨rfl, -⟩
      rw [hget] at hmem
      exact OrderedSet.notMem_empty timestamp hmem
    · exact And.left
  | some timestamps =>
    by_cases hchain : msg.messageChainId = chain
    · subst hchain
      dsimp only
      rw [OrderedMap.get?_set_self, hget, Option.getD_some, Option.getD_some,
        OrderedSet.mem_delete]
      simp [eq_comm]
    · dsimp only
      rw [OrderedMap.get?_set_of_ne _ _ (Ne.symm hchain)]
      simp [hchain]

/-- A call of `onMetadata` that comes back clears the timestamps of its chain. -/
theorem mem_ahead_metadataHandled {handled : Chain}
    (hstep : step manager (.metadataHandled handled) = some next) {timestamp : ℤ} :
    timestamp ∈ ahead next chain ↔ timestamp ∈ ahead manager chain ∧ handled ≠ chain := by
  obtain ⟨awaiting, rfl⟩ := step_metadataHandled hstep
  unfold PlumtreeManager.afterMetadata ahead
  dsimp only
  by_cases hchain : handled = chain
  · subst hchain
    split_ifs with hhas
    · rw [OrderedMap.get?_set_self]
      simp
    · have hnone : manager.metadataTimestampsAheadOfRealData.get? handled = none := by
        rw [OrderedMap.has, Bool.not_eq_true, Option.isSome_eq_false_iff,
          Option.isNone_iff_eq_none] at hhas
        exact hhas
      rw [hnone]
      simp
  · split_ifs
    · dsimp only
      rw [OrderedMap.get?_set_of_ne _ _ (Ne.symm hchain)]
      simp [hchain]
    · simp [hchain]

/-- What a step does to the timestamps that are ahead. -/
theorem mem_ahead_step {event : Event Chain DhtAddress} (hstep : step manager event = some next)
    {timestamp : ℤ} : timestamp ∈ ahead next chain ↔
      timestamp ∈ ahead manager chain ∧ ¬ Removes chain timestamp event ∨
      ∃ msg previousNode, event = .metadata msg previousNode ∧ msg.messageChainId = chain ∧
        msg.timestamp = timestamp ∧ manager.getLatestMessageTimestamp chain < timestamp := by
  cases event with
  | broadcast msg previousNode =>
    rw [mem_ahead_broadcast hstep]
    simp [Removes]
  | metadata msg previousNode =>
    rw [ahead_metadata hstep]
    split_ifs with hlater
    · rw [OrderedSet.mem_add]
      constructor
      · rintro (rfl | hmem)
        · exact .inr ⟨msg, previousNode, rfl, hlater.1, rfl, hlater.2⟩
        · exact .inl ⟨hmem, id⟩
      · rintro (⟨hmem, -⟩ | ⟨_, _, heq, -, rfl, -⟩)
        · exact .inr hmem
        · obtain ⟨rfl, -⟩ := Event.metadata.inj heq
          exact .inl rfl
    · constructor
      · exact fun hmem ↦ .inl ⟨hmem, id⟩
      · rintro (⟨hmem, -⟩ | ⟨_, _, heq, hchain, rfl, hlt⟩)
        · exact hmem
        · obtain ⟨rfl, -⟩ := Event.metadata.inj heq
          exact absurd ⟨hchain, hlt⟩ hlater
  | metadataHandled handled =>
    rw [mem_ahead_metadataHandled hstep]
    simp [Removes]
  | other event =>
    rw [(step_other hstep).ahead_eq]
    simp [Removes]

theorem awaiting_resumeNeighbor (node : DhtAddress) (chain : Chain) (fromTimestamp : ℤ) :
    (manager.resumeNeighbor node chain fromTimestamp).1.awaiting = manager.awaiting := by
  unfold PlumtreeManager.resumeNeighbor
  split_ifs <;> rfl

theorem one_lt_length_add_iff {timestamps : OrderedSet ℤ} {timestamp : ℤ} :
    1 < (timestamps.add timestamp).elements.length ↔ ∃ other ≠ timestamp, other ∈ timestamps := by
  have hmem : timestamp ∈ (timestamps.add timestamp).elements := OrderedSet.mem_add.mpr (.inl rfl)
  constructor
  · intro hlt
    by_contra hall
    push Not at hall
    have hsubset : (timestamps.add timestamp).elements ⊆ [timestamp] := by
      intro other hother
      refine List.mem_singleton.mpr ?_
      by_contra hne
      exact hall other hne ((OrderedSet.mem_add.mp hother).resolve_left hne)
    exact absurd ((timestamps.add timestamp).nodup.length_le_of_subset hsubset)
      (Nat.not_le.mpr hlt)
  · rintro ⟨other, hne, hother⟩
    have hboth : [other, timestamp] ⊆ (timestamps.add timestamp).elements :=
      List.cons_subset.mpr ⟨OrderedSet.mem_add.mpr (.inr hother),
        List.cons_subset.mpr ⟨hmem, List.nil_subset _⟩⟩
    have hnodup : [other, timestamp].Nodup := by simp [hne]
    exact hnodup.length_le_of_subset hboth

/-- The resume is issued when another timestamp is ahead. -/
theorem issuesResume_iff : IssuesResume manager msg previousNode ↔
    manager.getLatestMessageTimestamp msg.messageChainId < msg.timestamp ∧
      ∃ timestamp ≠ msg.timestamp, timestamp ∈ ahead manager msg.messageChainId := by
  rw [← one_lt_length_add_iff, ahead]
  unfold IssuesResume PlumtreeManager.onMetadata
  dsimp only
  split_ifs with hlater hlt
  · rw [awaiting_resumeNeighbor]
    simp [hlater, hlt]
  · simp [hlt]
  · simp [hlater]

/-- A resume that is issued is sent when the node has paused the sender. -/
theorem sent_of_issuesResume (hissues : IssuesResume manager msg previousNode)
    (hpaused : manager.remotePausedNeighbors.isPaused previousNode msg.messageChainId = true) :
    (manager.onMetadata msg.toMessageID previousNode).2 =
      [.notification previousNode (.resumeNeighbor
        (manager.getLatestMessageTimestamp msg.messageChainId) msg.messageChainId)] := by
  obtain ⟨hlater, hother⟩ := issuesResume_iff.mp hissues
  have hlt := one_lt_length_add_iff.mpr hother
  unfold ahead at hlt
  unfold PlumtreeManager.onMetadata
  dsimp only
  rw [if_pos hlater, if_pos hlt, PlumtreeManager.resumeNeighbor, if_pos hpaused]
  rfl

/-! ### The state after a history -/

variable {ownId : DhtAddress} {limit maxPausedNeighbors : ℕ}
  {history : List (Event Chain DhtAddress)}

omit [DecidableEq DhtAddress] in
theorem broadcastsOn_concat (event : Event Chain DhtAddress) :
    broadcastsOn chain (history ++ [event]) =
      broadcastsOn chain history ++ (broadcastOf chain event).toList := by
  rw [broadcastsOn, List.filterMap_append, broadcastsOn]
  cases hof : broadcastOf chain event <;> simp [hof]

/-- Appending to the end of a list of which the last elements are kept. -/
theorem drop_append_singleton {Element : Type*} (elements : List Element) (element : Element)
    {kept : ℕ} (hkept : 0 < kept) :
    (elements ++ [element]).drop ((elements ++ [element]).length - kept) =
      if (elements.drop (elements.length - kept)).length < kept then
        elements.drop (elements.length - kept) ++ [element]
      else (elements.drop (elements.length - kept)).drop 1 ++ [element] := by
  rw [List.length_drop, List.length_append, List.length_singleton, List.drop_drop]
  split_ifs with hlt
  · rw [show elements.length + 1 - kept = elements.length - kept by omega]
    exact List.drop_append_of_le_length (by omega)
  · rw [show elements.length + 1 - kept = elements.length - kept + 1 by omega]
    exact List.drop_append_of_le_length (by omega)

/-- The buffer has the last messages that the node broadcast. -/
theorem buffer_after (hafter : after ownId limit maxPausedNeighbors history = some manager) :
    buffer manager chain = (buffered chain history).map Message.toMessageID := by
  induction history using List.reverseRecOn generalizing manager with
  | nil =>
    obtain rfl := Option.some.inj hafter
    rfl
  | append_singleton history event ih =>
    obtain ⟨before, hbefore, hstep⟩ := Transition.run_concat_eq_some.mp hafter
    rw [buffer_step hstep, ih hbefore, buffered, buffered, broadcastsOn_concat]
    cases hof : broadcastOf chain event with
    | none => rw [Option.toList_none, List.append_nil]
    | some msg =>
      dsimp only
      rw [Option.toList_some, drop_append_singleton _ _ (by decide : 0 < latestMessagesLimit),
        List.length_map]
      split_ifs
      · rw [List.map_append, List.map_singleton]
      · simp only [List.map_append, List.map_drop, List.map_singleton]

theorem getLatestMessageTimestamp_after
    (hafter : after ownId limit maxPausedNeighbors history = some manager) :
    manager.getLatestMessageTimestamp chain = latestTimestamp chain history := by
  rw [getLatestMessageTimestamp_eq, buffer_after hafter, List.getLast?_map, buffered,
    List.getLast?_drop, latestTimestamp]
  cases hlast : (broadcastsOn chain history).getLast? with
  | none => split_ifs <;> rfl
  | some last =>
    rw [if_neg]
    · rfl
    · have hpos := List.length_pos_of_mem (List.mem_of_getLast? hlast)
      have hlimit : 0 < latestMessagesLimit := by decide
      omega

omit [DecidableEq DhtAddress] in
theorem waiting_concat {event : Event Chain DhtAddress} {timestamp : ℤ} :
    Waiting chain (history ++ [event]) timestamp ↔
      Waiting chain history timestamp ∧ ¬ Removes chain timestamp event ∨
      ∃ msg previousNode, event = .metadata msg previousNode ∧ msg.messageChainId = chain ∧
        msg.timestamp = timestamp ∧ latestTimestamp chain history < timestamp := by
  constructor
  · rintro ⟨before, msg, previousNode, rest, hsplit, hchain, htimestamp, hlater, hrest⟩
    rcases List.eq_nil_or_concat rest with rfl | ⟨rest, last, rfl⟩
    · obtain ⟨rfl, hlast⟩ := List.append_inj' hsplit rfl
      exact .inr ⟨msg, previousNode, (List.cons.inj hlast).1, hchain, htimestamp, hlater⟩
    · rw [List.concat_eq_append, ← List.cons_append, ← List.append_assoc] at hsplit
      obtain ⟨rfl, hlast⟩ := List.append_inj' hsplit rfl
      obtain rfl := (List.cons.inj hlast).1
      left
      constructor
      · exact ⟨before, msg, previousNode, rest, rfl, hchain, htimestamp, hlater,
          fun other hother ↦ hrest other (by simp [hother])⟩
      · exact hrest event (by simp)
  · rintro (⟨⟨before, msg, previousNode, rest, rfl, hchain, htimestamp, hlater, hrest⟩, hkept⟩ |
      ⟨msg, previousNode, rfl, hchain, htimestamp, hlater⟩)
    · refine ⟨before, msg, previousNode, rest ++ [event], by simp, hchain, htimestamp, hlater, ?_⟩
      intro other hother
      rcases List.mem_append.mp hother with hother | hother
      · exact hrest other hother
      · rwa [List.mem_singleton.mp hother]
    · exact ⟨history, msg, previousNode, [], rfl, hchain, htimestamp, hlater,
        fun _ hother ↦ absurd hother List.not_mem_nil⟩

/-- The timestamps that are ahead after a history. -/
theorem waiting_iff (hafter : after ownId limit maxPausedNeighbors history = some manager)
    {timestamp : ℤ} : timestamp ∈ ahead manager chain ↔ Waiting chain history timestamp := by
  induction history using List.reverseRecOn generalizing manager with
  | nil =>
    obtain rfl := Option.some.inj hafter
    constructor
    · exact fun hmem ↦ absurd hmem (OrderedSet.notMem_empty timestamp)
    · rintro ⟨before, msg, previousNode, rest, hsplit, -⟩
      exact absurd hsplit.symm (by simp)
  | append_singleton history event ih =>
    obtain ⟨before, hbefore, hstep⟩ := Transition.run_concat_eq_some.mp hafter
    rw [mem_ahead_step hstep, waiting_concat, ih hbefore,
      getLatestMessageTimestamp_after hbefore]

/-! ### What a resume brings -/

/-- A node with its history. -/
structure Node (Chain DhtAddress : Type*) [DecidableEq Chain] [DecidableEq DhtAddress] where
  ownId : DhtAddress
  limit : ℕ
  maxPausedNeighbors : ℕ
  history : List (Event Chain DhtAddress)
  manager : PlumtreeManager Chain DhtAddress
  after_eq : after ownId limit maxPausedNeighbors history = some manager

/-- The messages that a node sends when another one resumes it for a chain. -/
def served (node resumer : Node Chain DhtAddress) (chain : Chain) :
    List (Sent Chain DhtAddress) :=
  (node.manager.receive resumer.ownId
    (.resumeNeighbor (resumer.manager.getLatestMessageTimestamp chain) chain)).2

/-- A message of a chain is greater than all that a node has broadcast. -/
def NewerThanAll (chain : Chain) (history : List (Event Chain DhtAddress)) (msg : Message Chain) :
    Prop :=
  ∀ other ∈ broadcastsOn chain history, other.Precedes msg

/-- A resume brings every message of the chain that the resumed node has in its buffer and that is
greater than all that the other one has broadcast. -/
def ServesNewer (node resumer : Node Chain DhtAddress) (chain : Chain) : Prop :=
  ∀ msg ∈ buffered chain node.history, NewerThanAll chain resumer.history msg →
    .streamMessage resumer.ownId msg.toMessageID ∈ served node resumer chain

/-- A message is later than the last one that a node has broadcast, or different from it in its
timestamp if it is not. -/
def DiffersFromLast (chain : Chain) (history : List (Event Chain DhtAddress))
    (msg : Message Chain) : Prop :=
  match (broadcastsOn chain history).getLast? with
  | none => 0 < msg.timestamp
  | some last => msg.timestamp ≠ last.timestamp

/-- A node resumes a neighbour for a chain in the second part of a history. -/
def IssuesIn (node : Node Chain DhtAddress) (chain : Chain)
    (before window : List (Event Chain DhtAddress)) : Prop :=
  ∃ first msg previousNode rest manager, window = first ++ .metadata msg previousNode :: rest ∧
    msg.messageChainId = chain ∧
    after node.ownId node.limit node.maxPausedNeighbors (before ++ first) = some manager ∧
    IssuesResume manager msg previousNode

/-- The second part of a history starts and ends with metadata of two messages of a chain that are
greater than all that the node broadcasts up to its end. -/
def HasNewerNotices (chain : Chain) (before window : List (Event Chain DhtAddress)) : Prop :=
  ∃ first previousFirst between second previousSecond,
    window = .metadata first previousFirst :: between ++ [.metadata second previousSecond] ∧
    first ≠ second ∧ first.messageChainId = chain ∧ second.messageChainId = chain ∧
    NewerThanAll chain (before ++ window) first ∧ NewerThanAll chain (before ++ window) second

/-- Metadata comes that is later than the last message that the node has broadcast, while a
different timestamp is ahead. -/
def MeetsAnother (chain : Chain) (before window : List (Event Chain DhtAddress)) : Prop :=
  ∃ first msg previousNode rest timestamp, window = first ++ .metadata msg previousNode :: rest ∧
    msg.messageChainId = chain ∧ latestTimestamp chain (before ++ first) < msg.timestamp ∧
    timestamp ≠ msg.timestamp ∧ Waiting chain (before ++ first) timestamp

theorem mem_served_iff {node resumer : Node Chain DhtAddress}
    (hmem : msg ∈ buffered chain node.history) :
    .streamMessage resumer.ownId msg.toMessageID ∈ served node resumer chain ↔
      latestTimestamp chain resumer.history < msg.timestamp := by
  have hserved : served node resumer chain =
      ((buffered chain node.history).map Message.toMessageID |>.filter fun other ↦
        latestTimestamp chain resumer.history < other.timestamp).map
          fun other ↦ .streamMessage resumer.ownId other := by
    rw [← buffer_after node.after_eq, ← getLatestMessageTimestamp_after resumer.after_eq]
    rfl
  rw [hserved, List.mem_map]
  constructor
  · rintro ⟨other, hother, heq⟩
    obtain ⟨-, rfl⟩ := Sent.streamMessage.inj heq
    exact of_decide_eq_true (List.mem_filter.mp hother).2
  · intro hlater
    exact ⟨msg.toMessageID, List.mem_filter.mpr ⟨List.mem_map_of_mem hmem, decide_eq_true hlater⟩,
      rfl⟩

omit [DecidableEq DhtAddress] in
/-- A message that is greater than all is later than the last one unless it has its timestamp. -/
theorem latestTimestamp_lt_iff {history : List (Event Chain DhtAddress)}
    (hnewer : NewerThanAll chain history msg) :
    latestTimestamp chain history < msg.timestamp ↔ DiffersFromLast chain history msg := by
  unfold latestTimestamp DiffersFromLast
  cases hlast : (broadcastsOn chain history).getLast? with
  | none => rfl
  | some last =>
    dsimp only
    rcases hnewer last (List.mem_of_getLast? hlast) with hlt | ⟨heq, -⟩
    · exact ⟨fun _ ↦ (Int.ne_of_lt hlt).symm, fun _ ↦ hlt⟩
    · rw [heq]
      simp

theorem servesNewer_iff (node resumer : Node Chain DhtAddress) (chain : Chain) :
    ServesNewer node resumer chain ↔ ∀ msg ∈ buffered chain node.history,
      NewerThanAll chain resumer.history msg → DiffersFromLast chain resumer.history msg := by
  refine forall₃_congr fun msg hmem hnewer ↦ ?_
  rw [mem_served_iff hmem, latestTimestamp_lt_iff hnewer]

theorem exists_after_of_prefix {node : Node Chain DhtAddress}
    {before rest : List (Event Chain DhtAddress)} (hhistory : node.history = before ++ rest) :
    ∃ manager, after node.ownId node.limit node.maxPausedNeighbors before = some manager := by
  have hafter := node.after_eq
  rw [hhistory, after, Transition.run_append, Option.bind_eq_some_iff] at hafter
  obtain ⟨manager, hmanager, -⟩ := hafter
  exact ⟨manager, hmanager⟩

theorem issuesIn_iff {node : Node Chain DhtAddress} {before window : List (Event Chain DhtAddress)}
    (hhistory : node.history = before ++ window) :
    IssuesIn node chain before window ↔ MeetsAnother chain before window := by
  constructor
  · rintro ⟨first, msg, previousNode, rest, manager, hwindow, rfl, hafter, hissues⟩
    obtain ⟨hlater, timestamp, hne, hmem⟩ := issuesResume_iff.mp hissues
    rw [getLatestMessageTimestamp_after hafter] at hlater
    exact ⟨first, msg, previousNode, rest, timestamp, hwindow, rfl, hlater, hne,
      (waiting_iff hafter).mp hmem⟩
  · rintro ⟨first, msg, previousNode, rest, timestamp, hwindow, rfl, hlater, hne, hwaiting⟩
    rw [hwindow, ← List.append_assoc] at hhistory
    obtain ⟨manager, hafter⟩ := exists_after_of_prefix hhistory
    refine ⟨first, msg, previousNode, rest, manager, hwindow, rfl, hafter, ?_⟩
    rw [← getLatestMessageTimestamp_after hafter] at hlater
    exact issuesResume_iff.mpr ⟨hlater, timestamp, hne, (waiting_iff hafter).mpr hwaiting⟩

/-- A resume brings everything newer if and only if none of that has the timestamp of the last message
that the resuming node has broadcast. Between two notices of newer messages a resume is issued if
and only if one of the notices there is later than the last message that the node has broadcast, and
comes while another timestamp is ahead. -/
theorem resume_exact :
    (∀ (node resumer : Node Chain DhtAddress) (chain : Chain),
      ServesNewer node resumer chain ↔ ∀ msg ∈ buffered chain node.history,
        NewerThanAll chain resumer.history msg → DiffersFromLast chain resumer.history msg) ∧
    ∀ (node : Node Chain DhtAddress) (chain : Chain)
      (before window : List (Event Chain DhtAddress)),
      node.history = before ++ window → HasNewerNotices chain before window →
      (IssuesIn node chain before window ↔ MeetsAnother chain before window) :=
  ⟨servesNewer_iff, fun _ _ _ _ hhistory _ ↦ issuesIn_iff hhistory⟩

/-! ### Equal timestamps -/

/-- A message of a chain with the timestamp five. -/
def atFive (sequenceNumber : ℤ) : Message ℕ := ⟨⟨0, 5⟩, sequenceNumber⟩

/-- A node that broadcast the second message with the timestamp. -/
def publisher : Node ℕ ℕ where
  ownId := 1
  limit := 4
  maxPausedNeighbors := 3
  history := [.broadcast (atFive 1) 9]
  manager := _
  after_eq := rfl

/-- A node that broadcast the first message with the timestamp, and is told of two more. -/
def subscriber : Node ℕ ℕ where
  ownId := 2
  limit := 4
  maxPausedNeighbors := 3
  history := [.broadcast (atFive 0) 9, .metadata (atFive 1) 1, .metadata (atFive 2) 1]
  manager := _
  after_eq := rfl

theorem newerThanAll_atFive {sequenceNumber : ℤ} (hpos : 0 < sequenceNumber) :
    NewerThanAll 0 subscriber.history (atFive sequenceNumber) := by
  intro other hother
  have hbroadcast : broadcastsOn 0 subscriber.history = [atFive 0] := by decide
  rw [hbroadcast, List.mem_singleton] at hother
  rw [hother]
  exact .inr ⟨rfl, hpos⟩

/-- The newer message is not sent, and the metadata of the newer messages does not make the node
resume anything. -/
theorem equal_timestamps_lost :
    ¬ (∀ (node resumer : Node ℕ ℕ) (chain : ℕ), ServesNewer node resumer chain) ∧
    ¬ (∀ (node : Node ℕ ℕ) (chain : ℕ) (before window : List (Event ℕ ℕ)),
      node.history = before ++ window → HasNewerNotices chain before window →
        IssuesIn node chain before window) := by
  constructor
  · intro hserves
    have hsent := hserves publisher subscriber 0 (atFive 1) (by decide)
      (newerThanAll_atFive (by decide))
    exact absurd hsent (by decide)
  · intro hissues
    let before : List (Event ℕ ℕ) := [.broadcast (atFive 0) 9]
    have hnotices : HasNewerNotices 0 before
        [.metadata (atFive 1) 1, .metadata (atFive 2) 1] :=
      ⟨atFive 1, 1, [], atFive 2, 1, rfl, by decide, rfl, rfl,
        newerThanAll_atFive (by decide), newerThanAll_atFive (by decide)⟩
    obtain ⟨first, msg, previousNode, rest, timestamp, hwindow, -, hlater, -⟩ :=
      (issuesIn_iff rfl).mp (hissues subscriber 0 _ _ rfl hnotices)
    match first, hwindow with
    | [], hwindow =>
      obtain ⟨rfl, -⟩ := Event.metadata.inj (List.cons.inj hwindow).1
      exact absurd hlater (by decide)
    | [_], hwindow =>
      obtain ⟨rfl, hrest⟩ := List.cons.inj hwindow
      obtain ⟨rfl, -⟩ := Event.metadata.inj (List.cons.inj hrest).1
      exact absurd hlater (by decide)
    | _ :: _ :: first, hwindow =>
      have hlength := congrArg List.length hwindow
      simp at hlength

end PomboStorageNode.TrackerlessNetwork.PlumtreeResume
