import Mathlib.Data.Finset.Card
import PomboStorageNode.Library.Transition
import PomboStorageNode.TrackerlessNetwork.NodeList

/-!
# Proxy connections

`ProxyClient.ts`, the connections of a node that publishes or subscribes through proxies. An update
closes the connections that the definition does not cover, and then opens or closes as many as are
missing or too many. The second part runs after an `await`, and the requests that it sends are
answered at any time; nothing serialises the updates that `setProxies` and lost connections start.

An answer to an older definition makes a connection that the latest one does not cover, and an
update does not count the requests that are in flight, so that two of them open more connections
than asked for (`overlapping_updates`). In the runs without either the connections follow the
definition whenever nothing is in flight (`follows_of_quiet`).
-/

set_option autoImplicit false

namespace PomboStorageNode.TrackerlessNetwork.ProxyConnections

open Library

/-! ### The client -/

/-- `ProxyDirection`. -/
inductive ProxyDirection
  | publish
  | subscribe
  deriving DecidableEq

/-- `ProxyDefinition`; a peer descriptor is known by its node id. -/
structure ProxyDefinition (DhtAddress UserID : Type*) where
  nodes : OrderedSet DhtAddress
  connectionCount : ℕ
  userId : UserID
  direction : Option ProxyDirection

/-- A `requestConnection` that has no answer yet. -/
structure Request (DhtAddress UserID : Type*) where
  nodeId : DhtAddress
  userId : UserID
  direction : Option ProxyDirection

/-- `ProxyClient`: the locks that it holds, its updates that have closed what is invalid and not
counted the connections yet, its requests in flight, and its calls of `setImmediate`. -/
structure ProxyClient (DhtAddress UserID : Type*) where
  definition : Option (ProxyDefinition DhtAddress UserID)
  connections : OrderedMap DhtAddress (Option ProxyDirection)
  neighbors : NodeList DhtAddress
  locked : OrderedSet DhtAddress
  updates : ℕ
  requests : List (Request DhtAddress UserID)
  immediates : List DhtAddress

variable {DhtAddress UserID : Type*} [DecidableEq DhtAddress]

namespace ProxyClient

omit [DecidableEq DhtAddress] in
/-- A new client. -/
def create (ownId : DhtAddress) : ProxyClient DhtAddress UserID where
  definition := none
  connections := OrderedMap.empty
  neighbors := NodeList.create ownId 1000
  locked := OrderedSet.empty
  updates := 0
  requests := []
  immediates := []

omit [DecidableEq DhtAddress] in
/-- The id of the local node, which the list of neighbours has too. -/
def ownId (client : ProxyClient DhtAddress UserID) : DhtAddress := client.neighbors.ownId

/-- `removeConnection`. -/
def removeConnection (client : ProxyClient DhtAddress UserID) (nodeId : DhtAddress) :
    ProxyClient DhtAddress UserID :=
  { client with
    connections := client.connections.delete nodeId
    neighbors := client.neighbors.remove nodeId
    locked := client.locked.delete nodeId }

/-- `closeConnection`, without the notice that it sends. -/
def closeConnection (client : ProxyClient DhtAddress UserID) (nodeId : DhtAddress) :
    ProxyClient DhtAddress UserID :=
  if client.connections.has nodeId then client.removeConnection nodeId else client

/-- `getInvalidConnections`. -/
def getInvalidConnections (client : ProxyClient DhtAddress UserID) : List DhtAddress :=
  match client.definition with
  | none => []
  | some definition => client.connections.keys.filter fun id ↦
      id ∉ definition.nodes || client.connections.get? id ≠ some definition.direction

/-- `updateConnections` up to its `await`: the invalid connections are closed. -/
def updateConnections (client : ProxyClient DhtAddress UserID) : ProxyClient DhtAddress UserID :=
  let closed := client.getInvalidConnections.foldl closeConnection client
  { closed with updates := closed.updates + 1 }

/-- `setProxies`. -/
def setProxies (client : ProxyClient DhtAddress UserID) (nodes : List DhtAddress) (userId : UserID)
    (direction : Option ProxyDirection) (connectionCount : Option ℕ) :
    Except String (ProxyClient DhtAddress UserID) :=
  if connectionCount.any (· > nodes.length) then
    .error "Cannot set connectionCount above the size of the configured array of nodes"
  else
    .ok { client with
      definition := some ⟨nodes.foldl OrderedSet.add OrderedSet.empty,
        connectionCount.getD nodes.length, userId, direction⟩ }.updateConnections

/-- What `sampleSize` can return: different candidates, as many as asked for if there are. -/
def isSample (chosen candidates : List DhtAddress) (size : ℕ) : Bool :=
  decide chosen.Nodup && chosen.all (· ∈ candidates) &&
    chosen.length = min size candidates.length

/-- `openRandomConnections`: a request to each chosen node. -/
def openRandomConnections (client : ProxyClient DhtAddress UserID)
    (definition : ProxyDefinition DhtAddress UserID) (chosen : List DhtAddress) :
    ProxyClient DhtAddress UserID :=
  { client with requests := client.requests ++
      chosen.map fun id ↦ ⟨id, definition.userId, definition.direction⟩ }

/-- The rest of `updateConnections`, with the nodes that `sampleSize` chooses. -/
def countConnections (client : ProxyClient DhtAddress UserID) (chosen : List DhtAddress) :
    Option (ProxyClient DhtAddress UserID) :=
  match client.definition, client.updates with
  | some definition, updates + 1 =>
    let counted := { client with updates := updates }
    let connectionCount := client.connections.keys.length
    if connectionCount < definition.connectionCount then
      let candidates := definition.nodes.elements.filter (!client.connections.has ·)
      if isSample chosen candidates (definition.connectionCount - connectionCount) then
        some (counted.openRandomConnections definition chosen)
      else none
    else
      -- as many connections as asked for: an empty sample, and nothing is closed
      let surplus := connectionCount - definition.connectionCount
      if isSample chosen client.connections.keys surplus then
        some (chosen.foldl closeConnection counted)
      else none
  | _, _ => none

/-- The rest of `attemptConnection`. The connection manager locks no connection to its own node. -/
def onAnswer (client : ProxyClient DhtAddress UserID) (request : Request DhtAddress UserID)
    (accepted : Bool) : ProxyClient DhtAddress UserID :=
  if accepted then
    { client with
      locked := if request.nodeId = client.ownId then client.locked
        else client.locked.add request.nodeId
      connections := client.connections.set request.nodeId request.direction
      neighbors := client.neighbors.add request.nodeId }
  else client

/-- `onNodeDisconnected`. An update does not fail, so that `retry` runs one. -/
def onNodeDisconnected (client : ProxyClient DhtAddress UserID) (nodeId : DhtAddress) :
    ProxyClient DhtAddress UserID :=
  if client.connections.has nodeId then (client.removeConnection nodeId).updateConnections
  else client

end ProxyClient

/-- What can happen to a client. -/
inductive Event (DhtAddress UserID : Type*)
  | setProxies (nodes : List DhtAddress) (userId : UserID) (direction : Option ProxyDirection)
    (connectionCount : Option ℕ)
  | counted (chosen : List DhtAddress)
  | answered (index : ℕ) (accepted : Bool)
  | leaveNotice (remoteNodeId : DhtAddress)
  | immediate (index : ℕ)
  | disconnected (nodeId : DhtAddress)

namespace ProxyClient

/-- One step. -/
def step (client : ProxyClient DhtAddress UserID) :
    Event DhtAddress UserID → Option (ProxyClient DhtAddress UserID)
  | .setProxies nodes userId direction connectionCount =>
    match client.setProxies nodes userId direction connectionCount with
    | .ok after => some after
    | .error _ => some client
  | .counted chosen => client.countConnections chosen
  | .answered index accepted =>
    client.requests[index]?.map fun request ↦
      { client with requests := client.requests.eraseIdx index }.onAnswer request accepted
  | .leaveNotice remoteNodeId =>
    if client.neighbors.has remoteNodeId then
      some { client with immediates := client.immediates ++ [remoteNodeId] }
    else some client
  | .immediate index =>
    client.immediates[index]?.map fun nodeId ↦
      { client with immediates := client.immediates.eraseIdx index }.onNodeDisconnected nodeId
  | .disconnected nodeId => some (client.onNodeDisconnected nodeId)

/-! ### What the connections should be -/

/-- No request and no update is in flight. -/
def Quiet (client : ProxyClient DhtAddress UserID) : Prop :=
  client.updates = 0 ∧ client.requests = []

/-- The connections follow the definition. -/
structure Follows (client : ProxyClient DhtAddress UserID) : Prop where
  neighbors : ∀ nodeId, nodeId ∈ client.connections.keys ↔ nodeId ∈ client.neighbors.getIds
  latest : ∀ nodeId direction, client.connections.get? nodeId = some direction →
    ∃ definition, client.definition = some definition ∧ nodeId ∈ definition.nodes ∧
      direction = definition.direction
  atMost : ∀ definition, client.definition = some definition →
    client.connections.keys.length ≤ definition.connectionCount
  locked : ∀ nodeId, nodeId ∈ client.connections.keys ↔ nodeId ∈ client.locked

/-- Whether a definition has the node and the direction of a request. -/
def covers (definition : ProxyDefinition DhtAddress UserID)
    (request : Request DhtAddress UserID) : Bool :=
  request.nodeId ∈ definition.nodes && request.direction = definition.direction

/-- The connected nodes. -/
def connected (client : ProxyClient DhtAddress UserID) : Finset DhtAddress :=
  client.connections.keys.toFinset

/-- The nodes with a request in flight that the definition covers. -/
def requested (client : ProxyClient DhtAddress UserID)
    (definition : ProxyDefinition DhtAddress UserID) : Finset DhtAddress :=
  ((client.requests.filter (covers definition)).map Request.nodeId).toFinset

/-- The connected nodes with those that an update opens, or without those that it closes. -/
def connectedWith (client : ProxyClient DhtAddress UserID)
    (definition : ProxyDefinition DhtAddress UserID) (chosen : List DhtAddress) :
    Finset DhtAddress :=
  if client.connections.keys.length < definition.connectionCount then
    client.connected ∪ chosen.toFinset
  else client.connected \ chosen.toFinset

/-- Whether the list of neighbours takes a node. -/
def hasRoom (client : ProxyClient DhtAddress UserID) (nodeId : DhtAddress) : Bool :=
  nodeId ≠ client.ownId &&
    (client.neighbors.has nodeId || client.neighbors.getIds.length < client.neighbors.limit)

/-- An answer that accepts is to a request that the latest definition covers, and there is room for
the node; and the last update that counts the connections leaves no more of them than asked for
when all requests in flight are accepted. -/
def InOrder (client : ProxyClient DhtAddress UserID) : Event DhtAddress UserID → Bool
  | .answered index true => client.requests[index]?.all fun request ↦
      client.definition.any (covers · request) && client.hasRoom request.nodeId
  | .counted chosen => client.updates ≠ 1 || client.definition.all fun definition ↦
      (client.connectedWith definition chosen ∪ client.requested definition).card ≤
        definition.connectionCount
  | _ => true

/-! ### What the operations do -/

theorem get?_closeConnection (client : ProxyClient DhtAddress UserID) (nodeId other : DhtAddress) :
    (client.closeConnection nodeId).connections.get? other =
      if other = nodeId then none else client.connections.get? other := by
  rw [closeConnection]
  by_cases hother : other = nodeId
  · subst hother
    rw [if_pos rfl]
    split_ifs with hhas
    · exact OrderedMap.get?_delete_self _ _
    · rwa [Bool.not_eq_true, OrderedMap.has, Option.isSome_eq_false_iff,
        Option.isNone_iff_eq_none] at hhas
  · rw [if_neg hother]
    split_ifs
    · exact OrderedMap.get?_delete_of_ne _ hother
    · rfl

theorem get?_foldl_closeConnection (client : ProxyClient DhtAddress UserID)
    (ids : List DhtAddress) (other : DhtAddress) :
    (ids.foldl closeConnection client).connections.get? other =
      if other ∈ ids then none else client.connections.get? other := by
  induction ids generalizing client with
  | nil => rfl
  | cons id ids ih =>
    rw [List.foldl_cons, ih, get?_closeConnection]
    by_cases hid : other = id <;> by_cases hmem : other ∈ ids <;> simp [hid, hmem]

/-- Closing connections leaves the rest of the client as it is. -/
theorem foldl_closeConnection_rest (client : ProxyClient DhtAddress UserID)
    (ids : List DhtAddress) :
    (ids.foldl closeConnection client).definition = client.definition ∧
      (ids.foldl closeConnection client).updates = client.updates ∧
      (ids.foldl closeConnection client).requests = client.requests := by
  induction ids generalizing client with
  | nil => exact ⟨rfl, rfl, rfl⟩
  | cons id ids ih =>
    have hone : (client.closeConnection id).definition = client.definition ∧
        (client.closeConnection id).updates = client.updates ∧
        (client.closeConnection id).requests = client.requests := by
      rw [closeConnection]
      split_ifs <;> exact ⟨rfl, rfl, rfl⟩
    obtain ⟨hdefinition, hupdates, hrequests⟩ := ih (client.closeConnection id)
    exact ⟨hdefinition.trans hone.1, hupdates.trans hone.2.1, hrequests.trans hone.2.2⟩

/-! ### The invariant -/

/-- The neighbours and the locked nodes are the connected ones. -/
structure Tied (client : ProxyClient DhtAddress UserID) : Prop where
  neighbors : ∀ nodeId, nodeId ∈ client.connections.keys ↔ nodeId ∈ client.neighbors.getIds
  locked : ∀ nodeId, nodeId ∈ client.connections.keys ↔ nodeId ∈ client.locked

/-- The connections are to nodes of the latest definition and have its direction. -/
def Latest (client : ProxyClient DhtAddress UserID) : Prop :=
  ∀ nodeId direction, client.connections.get? nodeId = some direction →
    ∃ definition, client.definition = some definition ∧ nodeId ∈ definition.nodes ∧
      direction = definition.direction

/-- When no update is going to count the connections, there are at most as many as asked for, even
when all requests in flight are accepted. -/
def Room (client : ProxyClient DhtAddress UserID) : Prop :=
  client.updates = 0 → ∀ definition, client.definition = some definition →
    (client.connected ∪ client.requested definition).card ≤ definition.connectionCount

/-- What holds in the runs that are in order. -/
structure Invariant (client : ProxyClient DhtAddress UserID) : Prop where
  tied : client.Tied
  latest : client.Latest
  room : client.Room

theorem mem_connected {client : ProxyClient DhtAddress UserID} {nodeId : DhtAddress} :
    nodeId ∈ client.connected ↔ nodeId ∈ client.connections.keys := List.mem_toFinset

theorem mem_requested {client : ProxyClient DhtAddress UserID}
    {definition : ProxyDefinition DhtAddress UserID} {nodeId : DhtAddress} :
    nodeId ∈ client.requested definition ↔ ∃ request ∈ client.requests,
      covers definition request = true ∧ request.nodeId = nodeId := by
  simp [requested, and_assoc]

theorem Tied.removeConnection {client : ProxyClient DhtAddress UserID} (htied : client.Tied)
    (nodeId : DhtAddress) : (client.removeConnection nodeId).Tied := by
  have hkeys : ∀ other, other ∈ (client.removeConnection nodeId).connections.keys ↔
      other ∈ client.connections.keys ∧ other ≠ nodeId := fun other ↦ by
    rw [← OrderedMap.has_iff_mem_keys, ← OrderedMap.has_iff_mem_keys,
      ProxyClient.removeConnection, OrderedMap.has_delete]
  refine ⟨fun other ↦ ?_, fun other ↦ ?_⟩
  · rw [hkeys, htied.neighbors]
    exact NodeList.mem_getIds_remove.symm
  · rw [hkeys, htied.locked]
    exact OrderedSet.mem_delete.symm

theorem Tied.foldl_closeConnection {client : ProxyClient DhtAddress UserID} (htied : client.Tied)
    (ids : List DhtAddress) : (ids.foldl closeConnection client).Tied := by
  induction ids generalizing client with
  | nil => exact htied
  | cons id ids ih =>
    refine ih ?_
    rw [closeConnection]
    split_ifs
    · exact htied.removeConnection id
    · exact htied

/-- A node that there is room for is connected, locked and a neighbour after it accepted. -/
theorem Tied.onAnswer {client : ProxyClient DhtAddress UserID} (htied : client.Tied)
    {request : Request DhtAddress UserID} (hroom : client.hasRoom request.nodeId = true) :
    (client.onAnswer request true).Tied := by
  rw [hasRoom, Bool.and_eq_true, decide_eq_true_eq, Bool.or_eq_true, decide_eq_true_eq] at hroom
  constructor
  · intro nodeId
    refine OrderedMap.mem_keys_set.trans ?_
    rw [htied.neighbors]
    refine ⟨?_, NodeList.mem_getIds_add⟩
    rintro (rfl | hmem)
    · exact NodeList.mem_getIds_add_self hroom.1.symm (hroom.2.imp NodeList.has_iff.mp id)
    · exact NodeList.mem_getIds_add_of_mem hmem
  · intro nodeId
    have hlocked : (client.onAnswer request true).locked = client.locked.add request.nodeId :=
      if_neg hroom.1
    refine OrderedMap.mem_keys_set.trans ?_
    rw [hlocked, OrderedSet.mem_add, htied.locked]

theorem Tied.updateConnections {client : ProxyClient DhtAddress UserID} (htied : client.Tied) :
    client.updateConnections.Tied :=
  ⟨(htied.foldl_closeConnection _).neighbors, (htied.foldl_closeConnection _).locked⟩

/-- Fewer connections under the same definition. -/
theorem Latest.of_fewer {client after : ProxyClient DhtAddress UserID} (hlatest : client.Latest)
    (hdefinition : after.definition = client.definition)
    (hfewer : ∀ nodeId direction, after.connections.get? nodeId = some direction →
      client.connections.get? nodeId = some direction) : after.Latest := by
  intro nodeId direction hget
  obtain ⟨definition, hsome, hrest⟩ := hlatest nodeId direction (hfewer nodeId direction hget)
  exact ⟨definition, hdefinition.trans hsome, hrest⟩

theorem Latest.foldl_closeConnection {client : ProxyClient DhtAddress UserID}
    (hlatest : client.Latest) (ids : List DhtAddress) :
    (ids.foldl closeConnection client).Latest := by
  refine hlatest.of_fewer (client.foldl_closeConnection_rest ids).1 fun nodeId direction hget ↦ ?_
  rw [get?_foldl_closeConnection] at hget
  split_ifs at hget
  exact hget

/-- After the first part of an update only valid connections are left. -/
theorem latest_updateConnections {client : ProxyClient DhtAddress UserID}
    {definition : ProxyDefinition DhtAddress UserID}
    (hdefinition : client.definition = some definition) : client.updateConnections.Latest := by
  intro nodeId direction hget
  have hclosed : (client.getInvalidConnections.foldl closeConnection client).connections.get?
      nodeId = some direction := hget
  rw [get?_foldl_closeConnection] at hclosed
  split_ifs at hclosed with hinvalid
  have hsame := (client.foldl_closeConnection_rest client.getInvalidConnections).1
  refine ⟨definition, hsame.trans hdefinition, ?_⟩
  have hkey : nodeId ∈ client.connections.keys := OrderedMap.mem_keys_iff.mpr ⟨_, hclosed⟩
  rw [getInvalidConnections, hdefinition, List.mem_filter, not_and] at hinvalid
  have hvalid := hinvalid hkey
  simp only [hclosed, Bool.or_eq_true, decide_eq_true_eq, not_or, not_not, Option.some.injEq,
    ne_eq] at hvalid
  exact hvalid

/-- An update that has closed what is invalid is still to count. -/
theorem room_of_updates {client : ProxyClient DhtAddress UserID} (hupdates : client.updates ≠ 0) :
    client.Room := fun hzero ↦ absurd hzero hupdates

theorem updates_updateConnections (client : ProxyClient DhtAddress UserID) :
    client.updateConnections.updates ≠ 0 := Nat.succ_ne_zero _

/-- Connections and requests that are among those of another state keep the room. -/
theorem room_of_subset {client after : ProxyClient DhtAddress UserID} (hroom : client.Room)
    (hupdates : after.updates = 0 → client.updates = 0)
    (hdefinition : after.definition = client.definition)
    (hsub : ∀ definition, client.definition = some definition → ∀ nodeId,
      nodeId ∈ after.connected ∨ nodeId ∈ after.requested definition →
        nodeId ∈ client.connected ∨ nodeId ∈ client.requested definition) : after.Room := by
  intro hzero definition hsome
  rw [hdefinition] at hsome
  have hbefore := hroom (hupdates hzero) definition hsome
  refine le_trans (Finset.card_le_card fun nodeId hmem ↦ ?_) hbefore
  rw [Finset.mem_union] at hmem ⊢
  exact hsub definition hsome nodeId hmem

namespace Invariant

variable {client : ProxyClient DhtAddress UserID}

theorem setProxies (hinv : client.Invariant) {nodes : List DhtAddress} {userId : UserID}
    {direction : Option ProxyDirection} {connectionCount : Option ℕ}
    {after : ProxyClient DhtAddress UserID}
    (hset : client.setProxies nodes userId direction connectionCount = .ok after) :
    after.Invariant := by
  rw [ProxyClient.setProxies] at hset
  split_ifs at hset
  obtain rfl := Except.ok.inj hset
  exact ⟨Tied.updateConnections ⟨hinv.tied.neighbors, hinv.tied.locked⟩,
    latest_updateConnections rfl, room_of_updates (updates_updateConnections _)⟩

theorem onNodeDisconnected (hinv : client.Invariant) (nodeId : DhtAddress) :
    (client.onNodeDisconnected nodeId).Invariant := by
  rw [ProxyClient.onNodeDisconnected]
  split_ifs with hhas
  · have hremoved : (client.removeConnection nodeId).Latest := by
      refine hinv.latest.of_fewer rfl fun other direction hget ↦ ?_
      exact (OrderedMap.get?_delete_eq_some_iff.mp hget).2
    refine ⟨(hinv.tied.removeConnection nodeId).updateConnections, ?_,
      room_of_updates (updates_updateConnections _)⟩
    exact hremoved.foldl_closeConnection _
  · exact hinv

/-- What an update opens is covered by the definition, and the condition counts it. -/
theorem openRandomConnections (hinv : client.Invariant)
    {definition : ProxyDefinition DhtAddress UserID} {chosen : List DhtAddress} {updates : ℕ}
    (hdefinition : client.definition = some definition)
    (hmissing : client.connections.keys.length < definition.connectionCount)
    (horder : updates = 0 → (client.connectedWith definition chosen ∪
      client.requested definition).card ≤ definition.connectionCount) :
    (({ client with updates := updates }).openRandomConnections definition chosen).Invariant := by
  refine ⟨⟨hinv.tied.neighbors, hinv.tied.locked⟩, hinv.latest, fun hzero other hother ↦ ?_⟩
  obtain rfl : other = definition := Option.some.inj (hother.symm.trans hdefinition)
  refine le_trans (Finset.card_le_card fun nodeId hmem ↦ ?_) (horder hzero)
  rw [connectedWith, if_pos hmissing, Finset.mem_union, Finset.mem_union, List.mem_toFinset]
  rcases Finset.mem_union.mp hmem with hconnected | hrequested
  · exact Or.inl (Or.inl hconnected)
  · obtain ⟨request, hrequest, hcovers, rfl⟩ := mem_requested.mp hrequested
    rcases List.mem_append.mp hrequest with hold | hnew
    · exact Or.inr (mem_requested.mpr ⟨request, hold, hcovers, rfl⟩)
    · obtain ⟨id, hid, rfl⟩ := List.mem_map.mp hnew
      exact Or.inl (Or.inr hid)

/-- What an update closes is not connected afterwards. -/
theorem foldl_closeConnection (hinv : client.Invariant)
    {definition : ProxyDefinition DhtAddress UserID} {chosen : List DhtAddress} {updates : ℕ}
    (hdefinition : client.definition = some definition)
    (hmissing : ¬client.connections.keys.length < definition.connectionCount)
    (horder : updates = 0 → (client.connectedWith definition chosen ∪
      client.requested definition).card ≤ definition.connectionCount) :
    (chosen.foldl closeConnection { client with updates := updates }).Invariant := by
  have hcounted : ({ client with updates := updates }).Tied :=
    ⟨hinv.tied.neighbors, hinv.tied.locked⟩
  have hlatest : ({ client with updates := updates }).Latest := hinv.latest
  obtain ⟨hsame, hupdates, hrequests⟩ :=
    foldl_closeConnection_rest { client with updates := updates } chosen
  refine ⟨hcounted.foldl_closeConnection chosen, hlatest.foldl_closeConnection chosen,
    fun hzero other hother ↦ ?_⟩
  obtain rfl : other = definition :=
    Option.some.inj ((hother.symm.trans hsame).trans hdefinition)
  refine le_trans (Finset.card_le_card fun nodeId hmem ↦ ?_) (horder (hupdates.symm.trans hzero))
  rw [connectedWith, if_neg hmissing, Finset.mem_union, Finset.mem_sdiff, List.mem_toFinset]
  rcases Finset.mem_union.mp hmem with hconnected | hrequested
  · obtain ⟨direction, hget⟩ := OrderedMap.mem_keys_iff.mp (mem_connected.mp hconnected)
    rw [get?_foldl_closeConnection] at hget
    split_ifs at hget with hchosen
    exact Or.inl ⟨mem_connected.mpr (OrderedMap.mem_keys_iff.mpr ⟨direction, hget⟩), hchosen⟩
  · obtain ⟨request, hrequest, hboth⟩ := mem_requested.mp hrequested
    exact Or.inr (mem_requested.mpr ⟨request, hrequests ▸ hrequest, hboth⟩)

theorem countConnections (hinv : client.Invariant) {chosen : List DhtAddress}
    {after : ProxyClient DhtAddress UserID} (horder : client.InOrder (.counted chosen) = true)
    (hcount : client.countConnections chosen = some after) : after.Invariant := by
  rw [ProxyClient.countConnections] at hcount
  split at hcount
  case h_2 => exact nomatch hcount
  case h_1 definition updates hdefinition hupdates =>
    have hroom : updates = 0 → (client.connectedWith definition chosen ∪
        client.requested definition).card ≤ definition.connectionCount := fun hzero ↦ by
      rw [InOrder, hdefinition, hupdates, hzero] at horder
      simpa using horder
    dsimp only at hcount
    split_ifs at hcount with hmissing
    · obtain rfl := Option.some.inj hcount
      exact hinv.openRandomConnections hdefinition hmissing hroom
    · obtain rfl := Option.some.inj hcount
      exact hinv.foldl_closeConnection hdefinition hmissing hroom

/-- An answer to a request that the latest definition covers, or one that refuses. -/
theorem onAnswer (hinv : client.Invariant) {request : Request DhtAddress UserID} {index : ℕ}
    {accepted : Bool} (hrequest : client.requests[index]? = some request)
    (horder : client.InOrder (.answered index accepted) = true) :
    ((({ client with requests := client.requests.eraseIdx index }).onAnswer request
      accepted)).Invariant := by
  have hfewer : ∀ (definition : ProxyDefinition DhtAddress UserID) (nodeId : DhtAddress),
      nodeId ∈ ({ client with requests := client.requests.eraseIdx index }).requested definition →
        nodeId ∈ client.requested definition := fun definition nodeId hmem ↦ by
    obtain ⟨other, hother, hboth⟩ := mem_requested.mp hmem
    exact mem_requested.mpr ⟨other, List.mem_of_mem_eraseIdx hother, hboth⟩
  cases accepted with
  | false =>
    refine ⟨⟨hinv.tied.neighbors, hinv.tied.locked⟩, hinv.latest, ?_⟩
    refine room_of_subset hinv.room (fun hzero ↦ hzero) rfl fun definition _ nodeId hmem ↦ ?_
    exact hmem.imp id (hfewer definition nodeId)
  | true =>
    rw [InOrder, hrequest, Option.all_some, Bool.and_eq_true] at horder
    obtain ⟨hcovers, hroom⟩ := horder
    obtain ⟨definition, hdefinition, hcovered⟩ := (Option.any_eq_true _ _).mp hcovers
    have htied : ({ client with requests := client.requests.eraseIdx index }).Tied :=
      ⟨hinv.tied.neighbors, hinv.tied.locked⟩
    have hcovered' := hcovered
    rw [covers, Bool.and_eq_true, decide_eq_true_eq, decide_eq_true_eq] at hcovered
    refine ⟨htied.onAnswer hroom, fun nodeId direction hget ↦ ?_, ?_⟩
    · rcases OrderedMap.get?_set_eq_some_iff.mp hget with ⟨rfl, rfl⟩ | ⟨-, hbefore⟩
      · exact ⟨definition, hdefinition, hcovered⟩
      · exact hinv.latest nodeId direction hbefore
    · refine room_of_subset hinv.room (fun hzero ↦ hzero) rfl fun other hother nodeId hmem ↦ ?_
      obtain rfl : other = definition := Option.some.inj (hother.symm.trans hdefinition)
      rcases hmem with hconnected | hrequested
      · rcases OrderedMap.mem_keys_set.mp (mem_connected.mp hconnected) with rfl | hbefore
        · exact Or.inr (mem_requested.mpr
            ⟨request, List.mem_of_getElem? hrequest, hcovered', rfl⟩)
        · exact Or.inl (mem_connected.mpr hbefore)
      · exact Or.inr (hfewer other nodeId hrequested)

end Invariant

theorem invariant_create (ownId : DhtAddress) :
    (create ownId : ProxyClient DhtAddress UserID).Invariant where
  tied := ⟨fun _ ↦ Iff.rfl, fun _ ↦ Iff.rfl⟩
  latest := fun _ _ hget ↦ nomatch hget
  room := fun _ _ hsome ↦ nomatch hsome

/-- What a step that is in order does. -/
theorem invariant_step {client after : ProxyClient DhtAddress UserID}
    {event : Event DhtAddress UserID} (hinv : client.Invariant)
    (horder : client.InOrder event = true) (hstep : step client event = some after) :
    after.Invariant := by
  cases event with
  | setProxies nodes userId direction connectionCount =>
    rw [step] at hstep
    split at hstep
    · next hset => exact Option.some.inj hstep ▸ hinv.setProxies hset
    · exact Option.some.inj hstep ▸ hinv
  | counted chosen => exact hinv.countConnections horder hstep
  | answered index accepted =>
    obtain ⟨request, hrequest, rfl⟩ := Option.map_eq_some_iff.mp hstep
    exact hinv.onAnswer hrequest horder
  | leaveNotice remoteNodeId =>
    rw [step] at hstep
    split_ifs at hstep
    · obtain rfl := Option.some.inj hstep
      exact ⟨⟨hinv.tied.neighbors, hinv.tied.locked⟩, hinv.latest, hinv.room⟩
    · exact Option.some.inj hstep ▸ hinv
  | immediate index =>
    obtain ⟨nodeId, -, rfl⟩ := Option.map_eq_some_iff.mp hstep
    have hfewer :
        ({ client with immediates := client.immediates.eraseIdx index }).Invariant :=
      ⟨⟨hinv.tied.neighbors, hinv.tied.locked⟩, hinv.latest, hinv.room⟩
    exact hfewer.onNodeDisconnected nodeId
  | disconnected nodeId => exact Option.some.inj hstep ▸ hinv.onNodeDisconnected nodeId

/-- With nothing in flight, the room is for the connections alone. -/
theorem Invariant.follows {client : ProxyClient DhtAddress UserID} (hinv : client.Invariant)
    (hquiet : client.Quiet) : client.Follows where
  neighbors := hinv.tied.neighbors
  latest := hinv.latest
  locked := hinv.tied.locked
  atMost := fun definition hdefinition ↦ by
    have hcard : client.connected.card = client.connections.keys.length :=
      List.toFinset_card_of_nodup client.connections.nodup_keys
    rw [← hcard]
    exact le_trans (Finset.card_le_card Finset.subset_union_left)
      (hinv.room hquiet.1 definition hdefinition)

/-- In a run that is in order, the connections follow the definition whenever no request and no
update is in flight. -/
theorem follows_of_quiet (ownId : DhtAddress) (client : ProxyClient DhtAddress UserID)
    (hreachable : Transition.Reachable step (fun client event ↦ client.InOrder event = true)
      (· = create ownId) client) (hquiet : client.Quiet) : client.Follows := by
  have hinv : client.Invariant := by
    refine hreachable.invariant ?_ ?_
    · rintro state rfl
      exact invariant_create ownId
    · intro state event next _ hbefore hguard hnext
      exact invariant_step hbefore hguard hnext
  exact hinv.follows hquiet

/-! ### Updates that overlap -/

/-- One of two proxies accepts, is lost, and is replaced. -/
def replacedProxy : List (Event ℕ ℕ) :=
  [.setProxies [1, 2, 3] 0 none (some 2), .counted [1, 2], .answered 0 true, .answered 0 false,
    .disconnected 1, .counted [3, 2], .answered 0 true, .answered 0 true]

/-- A new definition, and then the answers to the requests of both definitions. -/
def lateAnswer : List (Event ℕ ℕ) :=
  [.setProxies [1] 0 none none, .counted [1], .setProxies [2] 0 none none, .counted [2],
    .answered 0 true, .answered 0 true]

/-- Two proxies are lost one after the other, and both updates open connections. -/
def twoLost : List (Event ℕ ℕ) :=
  [.setProxies [1, 2, 3, 4] 0 none (some 2), .counted [1, 2], .answered 0 true, .answered 0 true,
    .disconnected 1, .counted [3], .disconnected 2, .counted [1, 4], .answered 0 true,
    .answered 0 true, .answered 0 true]

/-- Nothing is in flight, and the connections are to these nodes of those of the definition. -/
def isQuietWith (connections nodes : List ℕ) (connectionCount : ℕ) (client : ProxyClient ℕ ℕ) :
    Bool :=
  client.updates = 0 && client.requests.isEmpty && client.connections.keys = connections &&
    client.definition.any fun definition ↦
      definition.nodes.elements = nodes && definition.connectionCount = connectionCount

theorem quiet_of_isQuietWith {connections nodes : List ℕ} {connectionCount : ℕ}
    {client : ProxyClient ℕ ℕ}
    (hcheck : isQuietWith connections nodes connectionCount client = true) :
    client.Quiet ∧ client.connections.keys = connections ∧ ∃ definition,
      client.definition = some definition ∧ definition.nodes.elements = nodes ∧
        definition.connectionCount = connectionCount := by
  simp only [isQuietWith, Bool.and_eq_true, decide_eq_true_eq, List.isEmpty_iff,
    Option.any_eq_true] at hcheck
  obtain ⟨⟨⟨hupdates, hrequests⟩, hkeys⟩, definition, hdefinition, hnodes⟩ := hcheck
  exact ⟨⟨hupdates, hrequests⟩, hkeys, definition, hdefinition, hnodes⟩

/-- The two proxies that are left are those that the client follows. -/
theorem follows_replacedProxy : ∃ client : ProxyClient ℕ ℕ,
    client.connections.keys = [3, 2] ∧ client.Follows := by
  have hsome : (Transition.checkedRun step InOrder (create 0) replacedProxy).any
      (isQuietWith [3, 2] [1, 2, 3] 2) = true := by decide +kernel
  obtain ⟨client, hrun, hcheck⟩ := (Option.any_eq_true _ _).mp hsome
  obtain ⟨hquiet, hkeys, -⟩ := quiet_of_isQuietWith hcheck
  exact ⟨client, hkeys, follows_of_quiet 0 client
    (Transition.Reachable.of_checkedRun replacedProxy (fun _ _ ↦ id) (.start rfl) hrun) hquiet⟩

/-- A late answer connects to a node that the latest definition does not have, and two updates that
overlap open more connections than asked for. -/
theorem overlapping_updates :
    (∃ (client : ProxyClient ℕ ℕ) (definition : ProxyDefinition ℕ ℕ) (nodeId : ℕ),
      Transition.Reachable step (fun _ _ ↦ True) (· = create 0) client ∧ client.Quiet ∧
      client.definition = some definition ∧ nodeId ∈ client.connections.keys ∧
      nodeId ∉ definition.nodes) ∧
    ∃ (client : ProxyClient ℕ ℕ) (definition : ProxyDefinition ℕ ℕ),
      Transition.Reachable step (fun _ _ ↦ True) (· = create 0) client ∧ client.Quiet ∧
      client.definition = some definition ∧
      definition.connectionCount < client.connections.keys.length := by
  constructor
  · have hsome : (Transition.run step (create 0) lateAnswer).any
        (isQuietWith [1, 2] [2] 1) = true := by decide +kernel
    obtain ⟨client, hrun, hcheck⟩ := (Option.any_eq_true _ _).mp hsome
    obtain ⟨hquiet, hkeys, definition, hdefinition, hnodes, -⟩ := quiet_of_isQuietWith hcheck
    refine ⟨client, definition, 1, .of_run lateAnswer (fun _ _ _ ↦ trivial) (.start rfl) hrun,
      hquiet, hdefinition, by rw [hkeys]; decide, ?_⟩
    rw [OrderedSet.mem_def, hnodes]
    decide
  · have hsome : (Transition.run step (create 0) twoLost).any
        (isQuietWith [3, 1, 4] [1, 2, 3, 4] 2) = true := by decide +kernel
    obtain ⟨client, hrun, hcheck⟩ := (Option.any_eq_true _ _).mp hsome
    obtain ⟨hquiet, hkeys, definition, hdefinition, -, hcount⟩ := quiet_of_isQuietWith hcheck
    refine ⟨client, definition, .of_run twoLost (fun _ _ _ ↦ trivial) (.start rfl) hrun, hquiet,
      hdefinition, ?_⟩
    rw [hkeys, hcount]
    decide

end ProxyClient

end PomboStorageNode.TrackerlessNetwork.ProxyConnections
