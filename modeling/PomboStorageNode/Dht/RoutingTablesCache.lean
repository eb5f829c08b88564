import PomboStorageNode.Dht.Identifiers
import PomboStorageNode.Dht.SortedContactList
import PomboStorageNode.Library.OrderedMap
import PomboStorageNode.Library.Transition

/-!
# Cached routing tables

`RoutingTablesCache.ts` keeps the routing tables of a node, one for each pair of a target and a
previous peer, and `updateAndGetRoutablePeers` of `RoutingSession.ts` builds a table from the
connections when there is none with a contact in it. A table has the five closest connected nodes
that are not further from the target than the previous peer. A node that connects is added to every
table, and one that disconnects is removed from them.

A table that loses a contact does not get back one that it had no room for. `KeepsTables` is the
condition under which an event leaves no table behind: nothing is lost when all eligible nodes have
room, or when the node that disconnects is not in the table. Where eligible nodes are equally far
from the target, a table also depends on the order of the connections.
-/

set_option autoImplicit false

namespace PomboStorageNode.Dht.RoutingTablesCache

open Library SortedContactList

variable {Remote Distance : Type*} [LinearOrder Distance]
  {getPeerDistance : DhtAddress → DhtAddress → Distance}

/-- `ROUTING_TABLE_MAX_SIZE`. -/
def routingTableMaxSize : ℕ := 5

/-- `createRoutingTableId`. -/
def createRoutingTableId (targetId : DhtAddress) (previousId : Option DhtAddress) : List Char :=
  targetId.text ++ (previousId.map DhtAddress.text).getD []

/-- The options of a routing table. -/
def routingTableOptions (targetId : DhtAddress) (previousId : Option DhtAddress) :
    SortedContactListOptions DhtAddress where
  referenceId := targetId
  allowToContainReferenceId := true
  maxSize := some routingTableMaxSize
  nodeIdDistanceLimit := previousId
  excludedNodeIds := []
  maxSize_ne_zero := by decide

/-- The routing table that `updateAndGetRoutablePeers` builds from scratch. -/
def buildRoutingTable (getPeerDistance : DhtAddress → DhtAddress → Distance)
    (targetId : DhtAddress) (previousId : Option DhtAddress)
    (connections : List (Contact DhtAddress Remote)) : SortedContactList getPeerDistance Remote :=
  (SortedContactList.create getPeerDistance Remote
    (routingTableOptions targetId previousId)).addContacts connections

/-- A node: its connections, in the order in which `getConnections` returns them, and the cache.
There is at most one connection to another node. -/
structure Node (getPeerDistance : DhtAddress → DhtAddress → Distance) (Remote : Type*) where
  connections : List (Contact DhtAddress Remote)
  nodup_connections : (connections.map Contact.nodeId).Nodup
  tables : OrderedMap (List Char) (SortedContactList getPeerDistance Remote)

/-- What happens at a node. The cache drops a table when it is full or the table is too old; the
index of a new connection is its place among those that `getConnections` returns. -/
inductive Event (Remote : Type*)
  | connected (index : ℕ) (contact : Contact DhtAddress Remote)
  | disconnected (nodeId : DhtAddress)
  | routed (targetId : DhtAddress) (previousId : Option DhtAddress)
  | evicted (tableId : List Char)
  | reset

namespace Node

/-- A node without connections. -/
def create (getPeerDistance : DhtAddress → DhtAddress → Distance) (Remote : Type*) :
    Node getPeerDistance Remote := ⟨[], List.nodup_nil, .empty⟩

/-- `getConnections` after a contact has connected. -/
def connectionsWith (node : Node getPeerDistance Remote) (index : ℕ)
    (contact : Contact DhtAddress Remote) : List (Contact DhtAddress Remote) :=
  node.connections.take index ++ contact :: node.connections.drop index

theorem perm_connectionsWith (node : Node getPeerDistance Remote) (index : ℕ)
    (contact : Contact DhtAddress Remote) :
    (node.connectionsWith index contact).Perm (contact :: node.connections) := by
  have hperm := @List.perm_middle _ contact (node.connections.take index)
    (node.connections.drop index)
  rwa [List.take_append_drop] at hperm

/-- `onNodeConnected`, for a node that was not connected. -/
def onNodeConnected (node : Node getPeerDistance Remote) (index : ℕ)
    (contact : Contact DhtAddress Remote)
    (hnew : contact.nodeId ∉ node.connections.map Contact.nodeId) :
    Node getPeerDistance Remote where
  connections := node.connectionsWith index contact
  nodup_connections := by
    rw [((node.perm_connectionsWith index contact).map Contact.nodeId).nodup_iff, List.map_cons,
      List.nodup_cons]
    exact ⟨hnew, node.nodup_connections⟩
  tables := node.tables.mapValues fun table ↦ (table.addContact contact).1

/-- `onNodeDisconnected`. -/
def onNodeDisconnected (node : Node getPeerDistance Remote) (nodeId : DhtAddress) :
    Node getPeerDistance Remote where
  connections := node.connections.filter (·.nodeId ≠ nodeId)
  nodup_connections := node.nodup_connections.sublist (List.filter_sublist.map _)
  tables := node.tables.mapValues fun table ↦ (table.removeContact nodeId).1

/-- The routing table of `updateAndGetRoutablePeers`, and the node with the cache that is left: the
cached table if it is not empty, or one from scratch. -/
def routingTable (node : Node getPeerDistance Remote) (targetId : DhtAddress)
    (previousId : Option DhtAddress) :
    SortedContactList getPeerDistance Remote × Node getPeerDistance Remote :=
  let fresh := buildRoutingTable getPeerDistance targetId previousId node.connections
  let stored := { node with
    tables := node.tables.set (createRoutingTableId targetId previousId) fresh }
  match node.tables.get? (createRoutingTableId targetId previousId) with
  | some table => if 0 < table.getSize then (table, node) else (fresh, stored)
  | none => (fresh, stored)

/-- `updateAndGetRoutablePeers`. -/
def updateAndGetRoutablePeers (node : Node getPeerDistance Remote) (targetId : DhtAddress)
    (previousId : Option DhtAddress) (contactedPeers excludedNodeIds : List DhtAddress) :
    List (Contact DhtAddress Remote) × Node getPeerDistance Remote :=
  let (table, after) := node.routingTable targetId previousId
  (table.getClosestContacts.filter fun contact ↦
    contact.nodeId ∉ contactedPeers ∧ contact.nodeId ∉ excludedNodeIds, after)

/-- One event. A node that is connected does not connect again. -/
def step (node : Node getPeerDistance Remote) :
    Event Remote → Option (Node getPeerDistance Remote)
  | .connected index contact =>
    if hnew : contact.nodeId ∈ node.connections.map Contact.nodeId then none
    else some (node.onNodeConnected index contact hnew)
  | .disconnected nodeId => some (node.onNodeDisconnected nodeId)
  | .routed targetId previousId => some (node.routingTable targetId previousId).2
  | .evicted tableId => some { node with tables := node.tables.delete tableId }
  | .reset => some { node with tables := .empty }

end Node

/-! ### Ids of tables -/

/-- Different pairs of addresses have different tables. -/
theorem createRoutingTableId_injective {first second : DhtAddress}
    {previous other : Option DhtAddress}
    (hsame : createRoutingTableId first previous = createRoutingTableId second other) :
    first = second ∧ previous = other := by
  obtain ⟨htarget, hprevious⟩ :=
    List.append_inj hsame (by rw [first.length_text, second.length_text])
  refine ⟨DhtAddress.text_injective htarget, ?_⟩
  cases previous with
  | none =>
    cases other with
    | none => rfl
    | some other =>
      have hlength := congrArg List.length hprevious
      simp [other.length_text] at hlength
  | some previous =>
    cases other with
    | none =>
      have hlength := congrArg List.length hprevious
      simp [previous.length_text] at hlength
    | some other => exact congrArg some (DhtAddress.text_injective (by simpa using hprevious))

/-! ### Tables from scratch -/

/-- The nodes that a table from scratch is built from: those that are connected and not further from
the target than the previous peer. -/
def Routable (getPeerDistance : DhtAddress → DhtAddress → Distance) (targetId : DhtAddress)
    (previousId : Option DhtAddress) (connections : List (Contact DhtAddress Remote))
    (contact : Contact DhtAddress Remote) : Prop :=
  contact ∈ connections ∧ ∀ previous, previousId = some previous →
    getPeerDistance targetId contact.nodeId ≤ getPeerDistance targetId previous

theorem routable_iff {targetId : DhtAddress} {previousId : Option DhtAddress}
    {connections : List (Contact DhtAddress Remote)} {contact : Contact DhtAddress Remote} :
    Routable getPeerDistance targetId previousId connections contact ↔ contact ∈ connections ∧
      admits getPeerDistance (routingTableOptions targetId previousId) contact.nodeId = true := by
  refine and_congr_right fun _ ↦ ?_
  rw [admits_iff]
  have hallowed : ¬ ((routingTableOptions targetId previousId).allowToContainReferenceId = false ∧
      (routingTableOptions targetId previousId).referenceId = contact.nodeId) :=
    fun hreference ↦ Bool.noConfusion hreference.1
  exact ⟨fun hlimit ↦ ⟨List.not_mem_nil, hallowed, hlimit⟩, fun hadmits ↦ hadmits.2.2⟩

/-- A table from scratch has the five closest ones. -/
theorem least_buildRoutingTable (targetId : DhtAddress) (previousId : Option DhtAddress)
    {connections : List (Contact DhtAddress Remote)}
    (hnodup : (connections.map Contact.nodeId).Nodup) :
    Least (fun contact : Contact DhtAddress Remote ↦ getPeerDistance targetId contact.nodeId)
      routingTableMaxSize (Routable getPeerDistance targetId previousId connections)
      (buildRoutingTable getPeerDistance targetId previousId connections).contacts := by
  have hempty : Least (distanceToReferenceId getPeerDistance
      (routingTableOptions targetId previousId)) routingTableMaxSize
      (fun contact : Contact DhtAddress Remote ↦ contact ∈ [] ∧
        admits getPeerDistance (routingTableOptions targetId previousId) contact.nodeId = true)
      [] := Least.nil fun _ hpool ↦ List.not_mem_nil hpool.1
  have hleast := @least_addContacts _ _ _ _ getPeerDistance _
    (SortedContactList.create getPeerDistance Remote (routingTableOptions targetId previousId))
    routingTableMaxSize [] connections rfl hnodup hempty
  exact hleast.congr fun contact ↦ routable_iff.symm

/-- Tables of the same eligible contacts, in the same order, are the same. -/
theorem buildRoutingTable_congr {targetId : DhtAddress} {previousId : Option DhtAddress}
    {first second : List (Contact DhtAddress Remote)}
    (hsame : eligible getPeerDistance (routingTableOptions targetId previousId) first =
      eligible getPeerDistance (routingTableOptions targetId previousId) second) :
    buildRoutingTable getPeerDistance targetId previousId first =
      buildRoutingTable getPeerDistance targetId previousId second := by
  have hfirst := addContacts_eligible (SortedContactList.create getPeerDistance Remote
    (routingTableOptions targetId previousId)) first
  have hsecond := addContacts_eligible (SortedContactList.create getPeerDistance Remote
    (routingTableOptions targetId previousId)) second
  exact hfirst.symm.trans ((congrArg _ hsame).trans hsecond)

/-- The eligible ones among some contacts have different distances from the target. -/
def DistinctDistances (getPeerDistance : DhtAddress → DhtAddress → Distance)
    (targetId : DhtAddress) (previousId : Option DhtAddress)
    (contacts : List (Contact DhtAddress Remote)) : Prop :=
  ∀ first ∈ eligible getPeerDistance (routingTableOptions targetId previousId) contacts,
    ∀ second ∈ eligible getPeerDistance (routingTableOptions targetId previousId) contacts,
      getPeerDistance targetId first.nodeId = getPeerDistance targetId second.nodeId →
        first = second

/-- Where the distances are different, a table with the five closest nodes is the one from
scratch. -/
theorem eq_buildRoutingTable {targetId : DhtAddress} {previousId : Option DhtAddress}
    {connections : List (Contact DhtAddress Remote)}
    (hnodup : (connections.map Contact.nodeId).Nodup)
    (hdistinct : DistinctDistances getPeerDistance targetId previousId connections)
    {table : SortedContactList getPeerDistance Remote}
    (hoptions : table.options = routingTableOptions targetId previousId)
    (hleast : Least (fun contact : Contact DhtAddress Remote ↦
        getPeerDistance targetId contact.nodeId) routingTableMaxSize
      (Routable getPeerDistance targetId previousId connections) table.contacts) :
    table = buildRoutingTable getPeerDistance targetId previousId connections := by
  have hfresh : (buildRoutingTable getPeerDistance targetId previousId connections).options =
      routingTableOptions targetId previousId := options_addContacts _ _
  refine SortedContactList.ext (hoptions.trans hfresh.symm) ?_
  refine hleast.unique (fun first second hfirst hsecond ↦ ?_)
    (least_buildRoutingTable targetId previousId hnodup)
  exact hdistinct first (mem_eligible.mpr (routable_iff.mp hfirst)) second
    (mem_eligible.mpr (routable_iff.mp hsecond))

/-! ### Events that leave no table behind -/

/-- No contact at or behind an index is eligible, so that a new connection there comes last. -/
def ComesLast (getPeerDistance : DhtAddress → DhtAddress → Distance) (targetId : DhtAddress)
    (previousId : Option DhtAddress) (connections : List (Contact DhtAddress Remote))
    (index : ℕ) : Prop :=
  eligible getPeerDistance (routingTableOptions targetId previousId) (connections.drop index) = []

/-- A contact that comes last is added to the table. -/
theorem addContact_of_comesLast {targetId : DhtAddress} {previousId : Option DhtAddress}
    {node : Node getPeerDistance Remote} {index : ℕ} {contact : Contact DhtAddress Remote}
    (hlast : ComesLast getPeerDistance targetId previousId node.connections index) :
    ((buildRoutingTable getPeerDistance targetId previousId node.connections).addContact
        contact).1 =
      buildRoutingTable getPeerDistance targetId previousId
        (node.connectionsWith index contact) := by
  have happend : ((buildRoutingTable getPeerDistance targetId previousId
      node.connections).addContact contact).1 =
      buildRoutingTable getPeerDistance targetId previousId (node.connections ++ [contact]) :=
    (addContacts_append _ node.connections [contact]).symm
  rw [happend]
  refine buildRoutingTable_congr ?_
  have hbefore : eligible getPeerDistance (routingTableOptions targetId previousId)
      node.connections = eligible getPeerDistance (routingTableOptions targetId previousId)
        (node.connections.take index) := by
    conv_lhs => rw [← List.take_append_drop index node.connections, eligible_append, hlast,
      List.append_nil]
  have hcons : node.connectionsWith index contact =
      node.connections.take index ++ ([contact] ++ node.connections.drop index) := rfl
  rw [hcons, eligible_append, eligible_append, eligible_append, hlast, List.append_nil, hbefore]

/-- A contact that is not eligible makes no difference. -/
theorem addContact_of_not_eligible {targetId : DhtAddress} {previousId : Option DhtAddress}
    {node : Node getPeerDistance Remote} {index : ℕ} {contact : Contact DhtAddress Remote}
    (hnot : admits getPeerDistance (routingTableOptions targetId previousId) contact.nodeId =
      false) :
    ((buildRoutingTable getPeerDistance targetId previousId node.connections).addContact
        contact).1 =
      buildRoutingTable getPeerDistance targetId previousId
        (node.connectionsWith index contact) := by
  have hoptions := options_addContacts (SortedContactList.create getPeerDistance Remote
    (routingTableOptions targetId previousId)) node.connections
  rw [addContact_of_not_admits (by rw [buildRoutingTable, hoptions]; exact hnot)]
  refine buildRoutingTable_congr ?_
  have hcons : node.connectionsWith index contact =
      node.connections.take index ++ ([contact] ++ node.connections.drop index) := rfl
  have hnone : eligible getPeerDistance (routingTableOptions targetId previousId) [contact] =
      [] := by
    rw [eligible_cons, if_neg (by rw [hnot]; exact Bool.false_ne_true)]
    rfl
  rw [hcons, eligible_append, eligible_append, hnone, List.nil_append, ← eligible_append,
    List.take_append_drop]

/-- Where the distances are different, the place of a new connection makes no difference. -/
theorem addContact_of_distinct {targetId : DhtAddress} {previousId : Option DhtAddress}
    {node : Node getPeerDistance Remote} {index : ℕ} {contact : Contact DhtAddress Remote}
    (hnew : contact.nodeId ∉ node.connections.map Contact.nodeId)
    (hdistinct : DistinctDistances getPeerDistance targetId previousId
      (node.connectionsWith index contact)) :
    ((buildRoutingTable getPeerDistance targetId previousId node.connections).addContact
        contact).1 =
      buildRoutingTable getPeerDistance targetId previousId
        (node.connectionsWith index contact) := by
  have happend : ((buildRoutingTable getPeerDistance targetId previousId
      node.connections).addContact contact).1 =
      buildRoutingTable getPeerDistance targetId previousId (node.connections ++ [contact]) :=
    (addContacts_append _ node.connections [contact]).symm
  have hnodup : ((node.connections ++ [contact]).map Contact.nodeId).Nodup := by
    rw [(List.perm_append_singleton contact node.connections).map Contact.nodeId |>.nodup_iff,
      List.map_cons, List.nodup_cons]
    exact ⟨hnew, node.nodup_connections⟩
  rw [happend]
  refine eq_buildRoutingTable (node.onNodeConnected index contact hnew).nodup_connections
    hdistinct (options_addContacts _ _) ?_
  refine (least_buildRoutingTable targetId previousId hnodup).congr fun other ↦ ?_
  refine and_congr_left fun _ ↦ ?_
  have hperm := (List.perm_append_singleton contact node.connections).trans
    (node.perm_connectionsWith index contact).symm
  exact hperm.mem_iff

/-- A node that is not eligible makes no difference when it disconnects. -/
theorem removeContact_of_not_eligible {targetId : DhtAddress} {previousId : Option DhtAddress}
    {connections : List (Contact DhtAddress Remote)} {nodeId : DhtAddress}
    (hnodup : (connections.map Contact.nodeId).Nodup)
    (hnot : ∀ contact ∈ eligible getPeerDistance (routingTableOptions targetId previousId)
      connections, contact.nodeId ≠ nodeId) :
    ((buildRoutingTable getPeerDistance targetId previousId connections).removeContact
        nodeId).1 =
      buildRoutingTable getPeerDistance targetId previousId
        (connections.filter (·.nodeId ≠ nodeId)) := by
  have hsame : ((buildRoutingTable getPeerDistance targetId previousId
      connections).removeContact nodeId).1 =
      buildRoutingTable getPeerDistance targetId previousId connections := by
    refine SortedContactList.ext rfl (List.filter_eq_self.mpr fun contact hmem ↦ ?_)
    have hleast := @least_buildRoutingTable _ _ _ getPeerDistance targetId previousId _ hnodup
    have hpool := routable_iff.mp (hleast.pool_of_mem contact hmem)
    simpa using hnot contact (mem_eligible.mpr hpool)
  rw [hsame]
  refine buildRoutingTable_congr ?_
  rw [eligible, eligible, List.filter_filter]
  refine List.filter_congr fun contact hmem ↦ ?_
  cases hadmits : admits getPeerDistance (routingTableOptions targetId previousId)
    contact.nodeId with
  | false => rfl
  | true => simpa using hnot contact (mem_eligible.mpr ⟨hmem, hadmits⟩)

/-- Where all eligible nodes have room, a table without one of them is the one from scratch. -/
theorem removeContact_of_length_le {targetId : DhtAddress} {previousId : Option DhtAddress}
    {connections : List (Contact DhtAddress Remote)} {nodeId : DhtAddress}
    (hroom : (eligible getPeerDistance (routingTableOptions targetId previousId)
      connections).length ≤ routingTableMaxSize) :
    ((buildRoutingTable getPeerDistance targetId previousId connections).removeContact
        nodeId).1 =
      buildRoutingTable getPeerDistance targetId previousId
        (connections.filter (·.nodeId ≠ nodeId)) := by
  have hempty : (SortedContactList.create getPeerDistance Remote
      (routingTableOptions targetId previousId)).contacts.length + (eligible getPeerDistance
        (routingTableOptions targetId previousId) connections).length ≤ routingTableMaxSize := by
    rwa [SortedContactList.create, List.length_nil, Nat.zero_add]
  exact removeContact_addContacts rfl hempty

/-- Where the distances are different, a table without a node that it does not have is the one
from scratch. -/
theorem removeContact_of_distinct {targetId : DhtAddress} {previousId : Option DhtAddress}
    {connections : List (Contact DhtAddress Remote)} {nodeId : DhtAddress}
    (hnodup : (connections.map Contact.nodeId).Nodup)
    (hnot : (buildRoutingTable getPeerDistance targetId previousId connections).has nodeId =
      false)
    (hdistinct : DistinctDistances getPeerDistance targetId previousId connections) :
    ((buildRoutingTable getPeerDistance targetId previousId connections).removeContact
        nodeId).1 =
      buildRoutingTable getPeerDistance targetId previousId
        (connections.filter (·.nodeId ≠ nodeId)) := by
  refine eq_buildRoutingTable (hnodup.sublist (List.filter_sublist.map _)) ?_
    (options_addContacts _ _) ?_
  · intro first hfirst second hsecond hsame
    obtain ⟨hfirst, hadmits⟩ := mem_eligible.mp hfirst
    obtain ⟨hsecond, hother⟩ := mem_eligible.mp hsecond
    exact hdistinct first (mem_eligible.mpr ⟨List.mem_of_mem_filter hfirst, hadmits⟩) second
      (mem_eligible.mpr ⟨List.mem_of_mem_filter hsecond, hother⟩) hsame
  · have hkept : ∀ contact ∈ (buildRoutingTable getPeerDistance targetId previousId
        connections).contacts, decide (contact.nodeId ≠ nodeId) = true := by
      intro contact hmem
      refine decide_eq_true fun hid ↦ ?_
      have hhas := has_iff.mpr ⟨contact, hmem, hid⟩
      rw [hnot] at hhas
      exact Bool.false_ne_true hhas
    refine ((least_buildRoutingTable targetId previousId hnodup).filter (Or.inl hkept)).congr
      fun contact ↦ ?_
    rw [Routable, Routable, List.mem_filter, and_right_comm]

/-- The condition under which an event does not leave the table of a pair behind. -/
def KeepsTable (node : Node getPeerDistance Remote) (targetId : DhtAddress)
    (previousId : Option DhtAddress) (table : SortedContactList getPeerDistance Remote) :
    Event Remote → Prop
  | .connected index contact =>
    ComesLast getPeerDistance targetId previousId node.connections index ∨
      admits getPeerDistance (routingTableOptions targetId previousId) contact.nodeId = false ∨
      DistinctDistances getPeerDistance targetId previousId (node.connectionsWith index contact)
  | .disconnected nodeId =>
    (∀ contact ∈ eligible getPeerDistance (routingTableOptions targetId previousId)
        node.connections, contact.nodeId ≠ nodeId) ∨
      (eligible getPeerDistance (routingTableOptions targetId previousId)
        node.connections).length ≤ routingTableMaxSize ∨
      (table.has nodeId = false ∧
        DistinctDistances getPeerDistance targetId previousId node.connections)
  | .routed _ _ => True
  | .evicted _ => True
  | .reset => True

/-- The condition for all tables of the cache. -/
def KeepsTables (node : Node getPeerDistance Remote) (event : Event Remote) : Prop :=
  ∀ targetId previousId table,
    node.tables.get? (createRoutingTableId targetId previousId) = some table →
      KeepsTable node targetId previousId table event

/-- Every table of the cache is the one from scratch. -/
def Recomputed (node : Node getPeerDistance Remote) : Prop :=
  ∀ tableId table, node.tables.get? tableId = some table → ∃ targetId previousId,
    tableId = createRoutingTableId targetId previousId ∧
      table = buildRoutingTable getPeerDistance targetId previousId node.connections

/-- The table that routing uses is then the one from scratch, too. -/
theorem Recomputed.routingTable {node : Node getPeerDistance Remote} (hnode : Recomputed node)
    (targetId : DhtAddress) (previousId : Option DhtAddress) :
    (node.routingTable targetId previousId).1 =
      buildRoutingTable getPeerDistance targetId previousId node.connections := by
  unfold Node.routingTable
  dsimp only
  cases hget : node.tables.get? (createRoutingTableId targetId previousId) with
  | none => rfl
  | some table =>
    obtain ⟨target, previous, hid, htable⟩ := hnode _ table hget
    obtain ⟨rfl, rfl⟩ := createRoutingTableId_injective hid
    dsimp only
    split_ifs
    · exact htable
    · rfl

/-- Routing puts nothing else into the cache. -/
theorem Recomputed.routed {node : Node getPeerDistance Remote} (hnode : Recomputed node)
    (targetId : DhtAddress) (previousId : Option DhtAddress) :
    Recomputed (node.routingTable targetId previousId).2 := by
  have hstored : Recomputed { node with
      tables := node.tables.set (createRoutingTableId targetId previousId)
        (buildRoutingTable getPeerDistance targetId previousId node.connections) } := by
    intro tableId table hget
    by_cases hid : tableId = createRoutingTableId targetId previousId
    · subst hid
      rw [OrderedMap.get?_set_self, Option.some.injEq] at hget
      exact ⟨targetId, previousId, rfl, hget.symm⟩
    · rw [OrderedMap.get?_set_of_ne _ _ hid] at hget
      exact hnode tableId table hget
  unfold Node.routingTable
  dsimp only
  cases hget : node.tables.get? (createRoutingTableId targetId previousId) with
  | none => exact hstored
  | some table =>
    dsimp only
    split_ifs
    · exact hnode
    · exact hstored

theorem Recomputed.step {node after : Node getPeerDistance Remote} {event : Event Remote}
    (hnode : Recomputed node) (hkeeps : KeepsTables node event)
    (hstep : node.step event = some after) : Recomputed after := by
  cases event with
  | connected index contact =>
    rw [Node.step] at hstep
    split_ifs at hstep with hnew
    obtain rfl := Option.some.inj hstep
    intro tableId table hget
    rw [Node.onNodeConnected, OrderedMap.get?_mapValues] at hget
    obtain ⟨old, hold, rfl⟩ := Option.map_eq_some_iff.mp hget
    obtain ⟨targetId, previousId, rfl, rfl⟩ := hnode tableId old hold
    refine ⟨targetId, previousId, rfl, ?_⟩
    rcases hkeeps targetId previousId _ hold with hlast | hnot | hdistinct
    · exact addContact_of_comesLast hlast
    · exact addContact_of_not_eligible hnot
    · exact addContact_of_distinct hnew hdistinct
  | disconnected nodeId =>
    obtain rfl := Option.some.inj hstep
    intro tableId table hget
    rw [Node.onNodeDisconnected, OrderedMap.get?_mapValues] at hget
    obtain ⟨old, hold, rfl⟩ := Option.map_eq_some_iff.mp hget
    obtain ⟨targetId, previousId, rfl, rfl⟩ := hnode tableId old hold
    refine ⟨targetId, previousId, rfl, ?_⟩
    rcases hkeeps targetId previousId _ hold with hnot | hroom | ⟨hnot, hdistinct⟩
    · exact removeContact_of_not_eligible node.nodup_connections hnot
    · exact removeContact_of_length_le hroom
    · exact removeContact_of_distinct node.nodup_connections hnot hdistinct
  | routed targetId previousId =>
    obtain rfl := Option.some.inj hstep
    exact hnode.routed targetId previousId
  | evicted tableId =>
    obtain rfl := Option.some.inj hstep
    intro other table hget
    by_cases hid : other = tableId
    · subst hid
      rw [OrderedMap.get?_delete_self] at hget
      cases hget
    · rw [OrderedMap.get?_delete_of_ne _ hid] at hget
      exact hnode other table hget
  | reset =>
    obtain rfl := Option.some.inj hstep
    intro tableId table hget
    cases hget

/-- Assumes: a run in which no event leaves a table behind. In each of its states, the list that
routing obtains for a target and a previous peer is the list from scratch, which has the five
closest connected nodes that are not further than the previous peer; and different pairs have
different tables. -/
theorem recomputed_of_keepsTables (node : Node getPeerDistance Remote)
    (hreachable : Transition.Reachable Node.step KeepsTables
      (· = Node.create getPeerDistance Remote) node) :
    (∀ targetId previousId,
      (node.routingTable targetId previousId).1.getClosestContacts =
        (buildRoutingTable getPeerDistance targetId previousId
          node.connections).getClosestContacts ∧
      Least (fun contact : Contact DhtAddress Remote ↦ getPeerDistance targetId contact.nodeId)
        routingTableMaxSize (Routable getPeerDistance targetId previousId node.connections)
        (node.routingTable targetId previousId).1.getClosestContacts) ∧
    ∀ targetId previousId otherTargetId otherPreviousId,
      createRoutingTableId targetId previousId =
        createRoutingTableId otherTargetId otherPreviousId →
      targetId = otherTargetId ∧ previousId = otherPreviousId := by
  have hnode : Recomputed node := by
    refine hreachable.invariant ?_ fun node event after _ hnode hkeeps hstep ↦
      hnode.step hkeeps hstep
    rintro node rfl tableId table hget
    cases hget
  refine ⟨fun targetId previousId ↦ ?_, fun _ _ _ _ hsame ↦ createRoutingTableId_injective hsame⟩
  rw [hnode.routingTable targetId previousId]
  exact ⟨rfl, least_buildRoutingTable targetId previousId node.nodup_connections⟩

/-! ### Runs -/

section Runs

variable [DecidableEq Remote]

instance decidableDistinctDistances (targetId : DhtAddress) (previousId : Option DhtAddress)
    (contacts : List (Contact DhtAddress Remote)) :
    Decidable (DistinctDistances getPeerDistance targetId previousId contacts) :=
  inferInstanceAs (Decidable (∀ first ∈ _, ∀ second ∈ _, _ → _))

instance decidableComesLast (targetId : DhtAddress) (previousId : Option DhtAddress)
    (connections : List (Contact DhtAddress Remote)) (index : ℕ) :
    Decidable (ComesLast getPeerDistance targetId previousId connections index) :=
  inferInstanceAs (Decidable (_ = _))

instance decidableKeepsTable (node : Node getPeerDistance Remote) (targetId : DhtAddress)
    (previousId : Option DhtAddress) (table : SortedContactList getPeerDistance Remote) :
    (event : Event Remote) → Decidable (KeepsTable node targetId previousId table event)
  | .connected _ _ => inferInstanceAs (Decidable (_ ∨ _ ∨ _))
  | .disconnected _ => inferInstanceAs (Decidable ((∀ _ ∈ _, _) ∨ _ ∨ (_ ∧ _)))
  | .routed _ _ => inferInstanceAs (Decidable True)
  | .evicted _ => inferInstanceAs (Decidable True)
  | .reset => inferInstanceAs (Decidable True)

/-- `KeepsTables`, evaluated: the pair of a table is among its options. -/
def keepsTables? (node : Node getPeerDistance Remote) (event : Event Remote) : Bool :=
  node.tables.entries.all fun entry ↦
    decide (entry.1 = createRoutingTableId entry.2.options.referenceId
      entry.2.options.nodeIdDistanceLimit) &&
    decide (KeepsTable node entry.2.options.referenceId entry.2.options.nodeIdDistanceLimit
      entry.2 event)

theorem keepsTables_of_eval (node : Node getPeerDistance Remote) (event : Event Remote)
    (heval : keepsTables? node event = true) : KeepsTables node event := by
  intro targetId previousId table hget
  have hentry := List.all_eq_true.mp heval _ (OrderedMap.get?_eq_some_iff.mp hget)
  rw [Bool.and_eq_true, decide_eq_true_eq, decide_eq_true_eq] at hentry
  dsimp only at hentry
  obtain ⟨rfl, rfl⟩ := createRoutingTableId_injective hentry.1
  exact hentry.2

end Runs

/-- An address that ends in a given byte, after zeros. -/
def smallAddress (byte : UInt8) : DhtAddress := ⟨List.replicate 19 0 ++ [byte], DhtAddress.length_small byte⟩

/-- A connection to such an address, behind the others. -/
def connect (byte : UInt8) : Event Unit := .connected byte.toNat ⟨smallAddress byte, ()⟩

/-- Seven nodes are connected when a table is built, and the furthest one disconnects: the cached
table is the one from scratch. -/
theorem recomputed_after_furthest_left :
    ∃ node : Node kBucketDistance Unit,
      Transition.Reachable Node.step KeepsTables (· = Node.create kBucketDistance Unit) node ∧
      node.connections.map Contact.nodeId = [1, 2, 3, 4, 5, 6].map smallAddress ∧
      node.tables.has (createRoutingTableId (smallAddress 0) none) = true ∧
      (node.routingTable (smallAddress 0) none).1.getClosestContacts =
        (buildRoutingTable kBucketDistance (smallAddress 0) none
          node.connections).getClosestContacts := by
  have hrun : (Transition.checkedRun Node.step keepsTables? (Node.create kBucketDistance Unit)
      ([1, 2, 3, 4, 5, 6, 7].map connect ++
        [.routed (smallAddress 0) none, .disconnected (smallAddress 7)])).map (fun node ↦
        (node.connections.map Contact.nodeId,
          node.tables.has (createRoutingTableId (smallAddress 0) none))) =
      some ([1, 2, 3, 4, 5, 6].map smallAddress, true) := by
    decide +kernel
  obtain ⟨node, hnode, hfacts⟩ := Option.map_eq_some_iff.mp hrun
  rw [Prod.mk.injEq] at hfacts
  have hreachable : Transition.Reachable Node.step KeepsTables
      (· = Node.create kBucketDistance Unit) node :=
    .of_checkedRun _ keepsTables_of_eval (.start rfl) hnode
  exact ⟨node, hreachable, hfacts.1, hfacts.2,
    ((recomputed_of_keepsTables node hreachable).1 (smallAddress 0) none).1⟩

/-- Six nodes are connected when a table is built, and the closest one disconnects: the cached table
has four of the other five. -/
theorem four_after_closest_left :
    ∃ node : Node kBucketDistance Unit,
      Transition.Reachable Node.step (fun _ _ ↦ True) (· = Node.create kBucketDistance Unit)
        node ∧
      (node.routingTable (smallAddress 0) none).1.getContactIds = [2, 3, 4, 5].map smallAddress ∧
      (buildRoutingTable kBucketDistance (smallAddress 0) none node.connections).getContactIds =
        [2, 3, 4, 5, 6].map smallAddress := by
  have hrun : (Transition.run Node.step (Node.create kBucketDistance Unit)
      ([1, 2, 3, 4, 5, 6].map connect ++
        [.routed (smallAddress 0) none, .disconnected (smallAddress 1)])).map (fun node ↦
        ((node.routingTable (smallAddress 0) none).1.getContactIds,
          (buildRoutingTable kBucketDistance (smallAddress 0) none
            node.connections).getContactIds)) =
      some ([2, 3, 4, 5].map smallAddress, [2, 3, 4, 5, 6].map smallAddress) := by
    decide +kernel
  obtain ⟨node, hnode, hfacts⟩ := Option.map_eq_some_iff.mp hrun
  rw [Prod.mk.injEq] at hfacts
  exact ⟨node, .of_run _ (fun _ _ _ ↦ trivial) (.start rfl) hnode, hfacts⟩

end PomboStorageNode.Dht.RoutingTablesCache
