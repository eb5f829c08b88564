import PomboStorageNode.Dht.StoreRpcLocal
import PomboStorageNode.Library.Transition
import Mathlib.Algebra.BigOperators.Group.Finset.Basic
import Mathlib.Algebra.Order.BigOperators.Group.Finset

/-!
# Replication between nodes

The nodes of a DHT, and the `replicateData` messages between them. A message arrives once, or is
lost; requests to store data come at any time, neighbours come and go, entries expire, are deleted
or flagged, and a node that leaves sends its entries away. Everything may happen in any order.

A node passes an entry on only if it was news. So there is no storm: however the messages travel,
a node accepts a version at most once, and once more for each time that its entry expired
(`gossip_bounded`). And the newest version wins: a node that has received it has it from then on,
until the entry expires, whatever older versions are still under way (`newest_wins`).

The callbacks of `setImmediate` are kept with the node. A callback for an entry holds the stored
object, whose flags may change before it runs, so the event says what they are then.
-/

set_option autoImplicit false

namespace PomboStorageNode.Dht.ReplicationNetwork

open Library StoreManager StoreRpcLocal

variable {Data : Type} {Distance : Type*} [LinearOrder Distance]

/-! ### The network -/

/-- A callback of `setImmediate`: it sends one entry, or all entries of a key. -/
inductive Callback (Data : Type)
  | entry (dataEntry : DataEntry Data) (target : DhtAddress)
  | key (dataKey target : DhtAddress)

/-- A node. -/
structure Node (Data : Type) where
  neighbors : List (Contact DhtAddress Unit)
  localDataStore : LocalDataStore Data
  immediates : List (Callback Data)

/-- A `ReplicateDataRequest` under way. -/
structure ReplicateMessage (Data : Type) where
  source : DhtAddress
  target : DhtAddress
  entry : DataEntry Data

/-- The nodes, the messages under way, and the history: the versions that somebody asked to store,
those that a node was given and those of them that it passed on, with the entries that it was to
send to others for it, and the entries that expired. -/
structure State (Data : Type) where
  nodes : DhtAddress → Node Data
  inFlight : List (ReplicateMessage Data)
  created : List (Version Data)
  received : List (DhtAddress × Version Data)
  accepted : List (DhtAddress × Version Data)
  gossiped : List (DhtAddress × Version Data)
  expired : List (DhtAddress × DhtAddress × DhtAddress)

/-- What can happen. -/
inductive Event (Data : Type)
  | storeData (node : DhtAddress) (request : Version Data)
  | storeLocally (node : DhtAddress) (version : Version Data)
  | deliver (index : ℕ)
  | lose (index : ℕ)
  | runImmediate (node : DhtAddress) (index : ℕ) (stale deleted : Bool)
  | neighborsChange (node : DhtAddress) (neighbors : List (Contact DhtAddress Unit))
  | contactAdded (node : DhtAddress) (contact : Contact DhtAddress Unit)
  | markAsDeleted (node key creator : DhtAddress)
  | expire (node key creator : DhtAddress)
  | destroy (node : DhtAddress)

variable (getPeerDistance : DhtAddress → DhtAddress → Distance) (redundancyFactor : ℕ)
  (redundancyFactor_ne_zero : redundancyFactor ≠ 0)

/-- The options of the store manager of a node. -/
def optionsOf (state : State Data) (node : DhtAddress) : StoreManagerOptions Unit :=
  ⟨⟨node, ()⟩, (state.nodes node).neighbors, redundancyFactor, redundancyFactor_ne_zero⟩

/-- One node changes. -/
def State.setNode (state : State Data) (node : DhtAddress) (changed : Node Data) : State Data :=
  { state with nodes := Function.update state.nodes node changed }

/-- `replicateData` of a node, for a message to it. -/
def receive (state : State Data) (message : ReplicateMessage Data) : State Data :=
  let self := state.nodes message.target
  let options := optionsOf redundancyFactor redundancyFactor_ne_zero state message.target
  let replicated := replicateData getPeerDistance options self.localDataStore message.entry
    message.source
  let wasStored := (self.localDataStore.storeEntry message.entry).2
  let version := message.entry.version
  { state.setNode message.target { self with
      localDataStore := replicated.1
      immediates := self.immediates ++ replicated.2.map fun target ↦
        .entry message.entry target.nodeId } with
    received := (message.target, version) :: state.received
    accepted := if wasStored then (message.target, version) :: state.accepted else state.accepted
    gossiped := replicated.2.map (fun _ ↦ (message.target, version)) ++ state.gossiped }

/-- The messages that a callback sends. -/
def messagesOf (node : DhtAddress) (store : LocalDataStore Data) (stale deleted : Bool) :
    Callback Data → List (ReplicateMessage Data)
  | .entry dataEntry target => [⟨node, target, dataEntry.version.toEntry stale deleted⟩]
  | .key dataKey target => (store.values dataKey).map fun dataEntry ↦ ⟨node, target, dataEntry⟩

/-- `replicateDataToClosestNodes`. -/
def replicateDataToClosestNodes (options : StoreManagerOptions Unit)
    (store : LocalDataStore Data) : List (ReplicateMessage Data) :=
  store.allValues.flatMap fun dataEntry ↦
    (getClosestNodes getPeerDistance dataEntry.key options.neighbors
      (storersOptions options)).map fun neighbor ↦
        ⟨options.localPeerDescriptor.nodeId, neighbor.nodeId, dataEntry⟩

/-- The step relation. -/
def step (state : State Data) : Event Data → Option (State Data)
  | .storeData node request =>
    let self := state.nodes node
    let options := optionsOf redundancyFactor redundancyFactor_ne_zero state node
    some { state.setNode node { self with
        localDataStore := storeData getPeerDistance options self.localDataStore request } with
      created := request :: state.created
      received := (node, request) :: state.received }
  | .storeLocally node version =>
    let self := state.nodes node
    some { state.setNode node { self with
        localDataStore := (self.localDataStore.storeEntry (version.toEntry false false)).1 } with
      created := version :: state.created
      received := (node, version) :: state.received }
  | .deliver index =>
    state.inFlight[index]?.map fun message ↦
      receive getPeerDistance redundancyFactor redundancyFactor_ne_zero
        { state with inFlight := state.inFlight.eraseIdx index } message
  | .lose index =>
    state.inFlight[index]?.map fun _ ↦ { state with inFlight := state.inFlight.eraseIdx index }
  | .runImmediate node index stale deleted =>
    let self := state.nodes node
    self.immediates[index]?.map fun callback ↦
      { state.setNode node { self with immediates := self.immediates.eraseIdx index } with
        inFlight := state.inFlight ++
          messagesOf node self.localDataStore stale deleted callback }
  | .neighborsChange node neighbors =>
    some (state.setNode node { state.nodes node with neighbors := neighbors })
  | .contactAdded node contact =>
    let self := state.nodes node
    let options := optionsOf redundancyFactor redundancyFactor_ne_zero state node
    -- it may throw, and keeps what it did before
    let updated := (Throwing.exec (onContactAdded getPeerDistance options contact)
      ⟨self.localDataStore, []⟩).2
    some (state.setNode node { self with
      localDataStore := updated.localDataStore
      immediates := self.immediates ++ updated.immediates.map fun immediate ↦
        .key immediate.1 immediate.2.nodeId })
  | .markAsDeleted node key creator =>
    let self := state.nodes node
    some (state.setNode node { self with
      localDataStore := (self.localDataStore.markAsDeleted key creator).1 })
  | .expire node key creator =>
    let self := state.nodes node
    (self.localDataStore.getEntry key creator).map fun _ ↦
      { state.setNode node { self with localDataStore := self.localDataStore.expire key creator } with
        expired := (node, key, creator) :: state.expired }
  | .destroy node =>
    let self := state.nodes node
    let options := optionsOf redundancyFactor redundancyFactor_ne_zero state node
    some { state with inFlight := state.inFlight ++
      replicateDataToClosestNodes getPeerDistance options self.localDataStore }

/-- The nodes have no entries yet, and nothing has happened. -/
structure Start (state : State Data) : Prop where
  stores : ∀ node, (state.nodes node).localDataStore = .empty
  immediates : ∀ node, (state.nodes node).immediates = []
  inFlight : state.inFlight = []
  created : state.created = []
  received : state.received = []
  accepted : state.accepted = []
  gossiped : state.gossiped = []
  expired : state.expired = []

/-- The store of a node. -/
def State.store (state : State Data) (node : DhtAddress) : LocalDataStore Data :=
  (state.nodes node).localDataStore

variable {getPeerDistance redundancyFactor redundancyFactor_ne_zero} {state after : State Data}
  {event : Event Data} {node : DhtAddress}

/-- The store of the node that changed. -/
theorem store_self_of_nodes {changed : Node Data}
    (hnodes : after.nodes = Function.update state.nodes node changed) :
    after.store node = changed.localDataStore := by
  rw [State.store, hnodes, Function.update_self]

/-- The stores of the others. -/
theorem store_of_nodes_of_ne {other : DhtAddress} {changed : Node Data}
    (hnodes : after.nodes = Function.update state.nodes node changed) (hne : other ≠ node) :
    after.store other = state.store other := by
  rw [State.store, hnodes, Function.update_of_ne hne, State.store]

/-! ### What a step does to the stores -/

/-- The step changes no version, and is no part of the history. -/
structure Quiet (state after : State Data) : Prop where
  versions : ∀ node key creator,
    (after.store node).versionAt key creator = (state.store node).versionAt key creator
  created : after.created = state.created
  received : after.received = state.received
  accepted : after.accepted = state.accepted
  gossiped : after.gossiped = state.gossiped
  expired : after.expired = state.expired

/-- The step hands an entry to a node. The node passes it on only if it is news, to no more nodes
than there are storers. -/
structure Stores (redundancyFactor : ℕ) (state after : State Data) (node : DhtAddress)
    (entry : DataEntry Data) : Prop where
  self : ∀ key creator, (after.store node).versionAt key creator =
    ((state.store node).storeEntry entry).1.versionAt key creator
  others : ∀ other ≠ node, after.store other = state.store other
  received : after.received = (node, entry.version) :: state.received
  expired : after.expired = state.expired
  passed : (after.accepted = state.accepted ∧ after.gossiped = state.gossiped) ∨
    (((state.store node).storeEntry entry).2 = true ∧
      after.accepted = (node, entry.version) :: state.accepted ∧
      ∃ targets ≤ redundancyFactor,
        after.gossiped = List.replicate targets (node, entry.version) ++ state.gossiped)

/-- The step removes an expired entry. -/
structure Expires (state after : State Data) (node key creator : DhtAddress) : Prop where
  self : ∀ dataKey dataCreator, (after.store node).versionAt dataKey dataCreator =
    if dataKey = key ∧ dataCreator = creator then none
    else (state.store node).versionAt dataKey dataCreator
  others : ∀ other ≠ node, after.store other = state.store other
  received : after.received = state.received
  accepted : after.accepted = state.accepted
  gossiped : after.gossiped = state.gossiped
  expired : after.expired = (node, key, creator) :: state.expired

/-- A step that changes one node and keeps its versions. -/
theorem quiet_setNode {changed : Node Data}
    (hversions : ∀ key creator, changed.localDataStore.versionAt key creator =
      (state.store node).versionAt key creator) : Quiet state (state.setNode node changed) := by
  refine ⟨fun other key creator ↦ ?_, rfl, rfl, rfl, rfl, rfl⟩
  by_cases heq : other = node
  · rw [heq, store_self_of_nodes rfl, hversions]
  · rw [store_of_nodes_of_ne rfl heq]

/-- New neighbours make entries stale, and change no version. -/
theorem versionAt_onContactAdded (options : StoreManagerOptions Unit)
    (contact : Contact DhtAddress Unit) (store : LocalDataStore Data) (key creator : DhtAddress) :
    (Throwing.exec (onContactAdded getPeerDistance options contact)
      ⟨store, []⟩).2.localDataStore.versionAt key creator = store.versionAt key creator := by
  have hkeys : ∀ dataKey, Throwing.Keeps
      (fun manager : StoreManager.State Data Unit ↦ manager.localDataStore.versionAt key creator)
      (replicateAndUpdateStaleState getPeerDistance options contact dataKey) := by
    intro dataKey
    refine Throwing.Keeps.bind ?_ fun selfWasPrimaryStorer ↦ ?_
    · unfold areEqualPeerDescriptors
      split
      · exact Throwing.Keeps.pure _
      · exact Throwing.Keeps.throw _
    · refine Throwing.Keeps.ite (Throwing.Keeps.ite ?_ (Throwing.Keeps.pure _))
        (Throwing.Keeps.ite ?_ (Throwing.Keeps.pure _))
      · exact Throwing.Keeps.modify fun _ ↦ rfl
      · exact Throwing.Keeps.modify fun manager ↦
          LocalDataStore.versionAt_setAllEntriesAsStale _ _ _ _
  have hloop : ∀ dataKeys : List DhtAddress, Throwing.Keeps
      (fun manager : StoreManager.State Data Unit ↦ manager.localDataStore.versionAt key creator)
      (dataKeys.forM (replicateAndUpdateStaleState getPeerDistance options contact)) := by
    intro dataKeys
    induction dataKeys with
    | nil => exact Throwing.Keeps.pure _
    | cons dataKey dataKeys ih => exact (hkeys dataKey).bind fun _ ↦ ih
  exact hloop _ _

/-- A step that hands an entry to one node. -/
theorem stores_receive (message : ReplicateMessage Data) :
    Stores redundancyFactor state
      (receive getPeerDistance redundancyFactor redundancyFactor_ne_zero state message)
      message.target message.entry := by
  let options := optionsOf redundancyFactor redundancyFactor_ne_zero state message.target
  refine ⟨fun key creator ↦ ?_, fun other hother ↦ store_of_nodes_of_ne rfl hother, rfl, rfl, ?_⟩
  · rw [store_self_of_nodes rfl]
    exact versionAt_updateStaleState _ _ _ _
  · unfold receive replicateData
    dsimp only
    cases hstored : ((state.nodes message.target).localDataStore.storeEntry message.entry).2 with
    | false => exact Or.inl ⟨rfl, rfl⟩
    | true =>
      have hlength : (replicationTargets getPeerDistance options message.source
          message.entry.key).length ≤ redundancyFactor := length_replicationTargets_le _ _
      refine Or.inr ⟨hstored, rfl, _, hlength, ?_⟩
      rw [if_pos rfl, List.map_const']

theorem step_effect
    (hstep : step getPeerDistance redundancyFactor redundancyFactor_ne_zero state event =
      some after) :
    Quiet state after ∨
      (∃ node entry, Stores redundancyFactor state after node entry ∧
        (entry.version ∈ after.created ∨ ∃ message ∈ state.inFlight, message.entry = entry)) ∨
      ∃ node key creator, Expires state after node key creator := by
  cases event with
  | storeData node request =>
    cases hstep
    let options := optionsOf redundancyFactor redundancyFactor_ne_zero state node
    refine Or.inr (Or.inl ⟨node,
      request.toEntry (!isLocalNodeStorer getPeerDistance options request.key) false,
      ⟨fun key creator ↦ ?_, fun other hother ↦ store_of_nodes_of_ne rfl hother, rfl, rfl,
        Or.inl ⟨rfl, rfl⟩⟩, Or.inl List.mem_cons_self⟩)
    rw [store_self_of_nodes rfl]
    exact versionAt_updateStaleState _ _ _ _
  | storeLocally node version =>
    cases hstep
    refine Or.inr (Or.inl ⟨node, version.toEntry false false,
      ⟨fun key creator ↦ ?_, fun other hother ↦ store_of_nodes_of_ne rfl hother, rfl, rfl,
        Or.inl ⟨rfl, rfl⟩⟩, Or.inl List.mem_cons_self⟩)
    rw [store_self_of_nodes rfl]
    rfl
  | deliver index =>
    obtain ⟨message, hmessage, rfl⟩ := Option.map_eq_some_iff.mp hstep
    have hreceive : Stores redundancyFactor
        { state with inFlight := state.inFlight.eraseIdx index }
        (receive getPeerDistance redundancyFactor redundancyFactor_ne_zero
          { state with inFlight := state.inFlight.eraseIdx index } message)
        message.target message.entry := stores_receive message
    exact Or.inr (Or.inl ⟨message.target, message.entry,
      ⟨hreceive.self, hreceive.others, hreceive.received, hreceive.expired, hreceive.passed⟩,
      Or.inr ⟨message, List.mem_of_getElem? hmessage, rfl⟩⟩)
  | lose index =>
    obtain ⟨message, -, rfl⟩ := Option.map_eq_some_iff.mp hstep
    exact Or.inl ⟨fun _ _ _ ↦ rfl, rfl, rfl, rfl, rfl, rfl⟩
  | runImmediate node index stale deleted =>
    obtain ⟨callback, -, rfl⟩ := Option.map_eq_some_iff.mp hstep
    have hquiet : Quiet state (state.setNode node { state.nodes node with
        immediates := (state.nodes node).immediates.eraseIdx index }) :=
      quiet_setNode fun _ _ ↦ rfl
    exact Or.inl ⟨hquiet.versions, rfl, rfl, rfl, rfl, rfl⟩
  | neighborsChange node neighbors =>
    cases hstep
    exact Or.inl (quiet_setNode fun _ _ ↦ rfl)
  | contactAdded node contact =>
    cases hstep
    exact Or.inl (quiet_setNode fun _ _ ↦ versionAt_onContactAdded _ _ _ _ _)
  | markAsDeleted node key creator =>
    cases hstep
    exact Or.inl (quiet_setNode fun _ _ ↦ LocalDataStore.versionAt_markAsDeleted _ _ _ _ _)
  | expire node key creator =>
    obtain ⟨entry, -, rfl⟩ := Option.map_eq_some_iff.mp hstep
    refine Or.inr (Or.inr ⟨node, key, creator, fun dataKey dataCreator ↦ ?_,
      fun other hother ↦ store_of_nodes_of_ne rfl hother, rfl, rfl, rfl, rfl⟩)
    rw [store_self_of_nodes rfl]
    exact LocalDataStore.versionAt_expire _ _ _ _ _
  | destroy node =>
    cases hstep
    exact Or.inl ⟨fun _ _ _ ↦ rfl, rfl, rfl, rfl, rfl, rfl⟩

/-! ### Genuine versions -/

/-- Every version is stored under its own key and creator. -/
def Keyed (state : State Data) : Prop :=
  ∀ node key creator version, (state.store node).versionAt key creator = some version →
    version.key = key ∧ version.creator = creator

/-- The version is stored somewhere, waits to be sent, is under way, or was received. -/
inductive Circulates (state : State Data) (version : Version Data) : Prop
  | stored (node key creator : DhtAddress)
      (hversion : (state.store node).versionAt key creator = some version)
  | waiting (node target : DhtAddress) (dataEntry : DataEntry Data)
      (hcallback : .entry dataEntry target ∈ (state.nodes node).immediates)
      (hversion : dataEntry.version = version)
  | inFlight (message : ReplicateMessage Data) (hmessage : message ∈ state.inFlight)
      (hversion : message.entry.version = version)
  | received (node : DhtAddress) (hreceived : (node, version) ∈ state.received)

section Step

variable (hstep : step getPeerDistance redundancyFactor redundancyFactor_ne_zero state event =
  some after)

include hstep

/-- A version that a node has it had before, or it was created now or was under way. -/
theorem versionAt_step {key creator : DhtAddress} {version : Version Data}
    (hversion : (after.store node).versionAt key creator = some version) :
    (state.store node).versionAt key creator = some version ∨
      version.key = key ∧ version.creator = creator ∧
        (version ∈ after.created ∨ ∃ message ∈ state.inFlight, message.entry.version = version) := by
  rcases step_effect hstep with hquiet | ⟨changed, entry, hstores, hentry⟩ |
    ⟨changed, _, _, hexpires⟩
  · exact Or.inl ((hquiet.versions _ _ _).symm.trans hversion)
  · by_cases heq : node = changed
    · subst heq
      rw [hstores.self] at hversion
      by_cases hsame : key = entry.key ∧ creator = entry.creator
      · obtain ⟨rfl, rfl⟩ := hsame
        rcases (state.store node).storeEntry_spec entry with ⟨-, -, hstored⟩ | ⟨-, -, hstored⟩
        · obtain rfl := Option.some.inj (hstored.symm.trans hversion)
          refine Or.inr ⟨rfl, rfl, hentry.imp_right ?_⟩
          rintro ⟨message, hmessage, rfl⟩
          exact ⟨message, hmessage, rfl⟩
        · rw [hstored] at hversion
          exact Or.inl hversion
      · rw [LocalDataStore.versionAt_storeEntry_of_ne entry hsame] at hversion
        exact Or.inl hversion
    · exact Or.inl (hstores.others node heq ▸ hversion)
  · by_cases heq : node = changed
    · subst heq
      rw [hexpires.self] at hversion
      split_ifs at hversion
      exact Or.inl hversion
    · exact Or.inl (hexpires.others node heq ▸ hversion)

theorem keyed_step (hkeyed : Keyed state) : Keyed after := by
  intro node key creator version hversion
  rcases versionAt_step hstep hversion with hold | ⟨hkey, hcreator, -⟩
  · exact hkeyed node key creator version hold
  · exact ⟨hkey, hcreator⟩

theorem created_step : ∀ version ∈ state.created, version ∈ after.created := by
  intro version hversion
  cases event with
  | storeData | storeLocally =>
    cases hstep
    exact List.mem_cons_of_mem _ hversion
  | deliver | lose | runImmediate | expire =>
    obtain ⟨_, -, rfl⟩ := Option.map_eq_some_iff.mp hstep
    exact hversion
  | neighborsChange | contactAdded | markAsDeleted | destroy =>
    cases hstep
    exact hversion

omit hstep in
/-- The callbacks of a changed node. -/
theorem mem_immediates_of_nodes {changed : Node Data} {other : DhtAddress}
    {callback : Callback Data} (hnodes : after.nodes = Function.update state.nodes node changed)
    (hmem : callback ∈ (after.nodes other).immediates) :
    callback ∈ (state.nodes other).immediates ∨ callback ∈ changed.immediates := by
  rw [hnodes] at hmem
  by_cases heq : other = node
  · rw [heq, Function.update_self] at hmem
    exact Or.inr hmem
  · rw [Function.update_of_ne heq] at hmem
    exact Or.inl hmem

/-- A callback for an entry was there, or is for the entry of a message. -/
theorem immediates_step {other target : DhtAddress} {dataEntry : DataEntry Data}
    (hmem : .entry dataEntry target ∈ (after.nodes other).immediates) :
    (∃ node, .entry dataEntry target ∈ (state.nodes node).immediates) ∨
      ∃ message ∈ state.inFlight, message.entry = dataEntry := by
  have hchanged : ∀ {node : DhtAddress} {changed : Node Data},
      after.nodes = Function.update state.nodes node changed →
      (∀ callback ∈ changed.immediates, callback ∈ (state.nodes node).immediates) →
      ∃ node, .entry dataEntry target ∈ (state.nodes node).immediates := by
    intro node changed hnodes hsubset
    rcases mem_immediates_of_nodes hnodes hmem with hold | hnew
    · exact ⟨other, hold⟩
    · exact ⟨node, hsubset _ hnew⟩
  cases event with
  | storeData | storeLocally | neighborsChange | markAsDeleted =>
    cases hstep
    exact Or.inl (hchanged rfl fun _ hcallback ↦ hcallback)
  | deliver index =>
    obtain ⟨message, hmessage, rfl⟩ := Option.map_eq_some_iff.mp hstep
    rcases mem_immediates_of_nodes rfl hmem with hold | hnew
    · exact Or.inl ⟨other, hold⟩
    · rcases List.mem_append.mp hnew with hold | hpassed
      · exact Or.inl ⟨message.target, hold⟩
      · obtain ⟨_, -, hsame⟩ := List.mem_map.mp hpassed
        exact Or.inr ⟨message, List.mem_of_getElem? hmessage, (Callback.entry.inj hsame).1⟩
  | lose index =>
    obtain ⟨_, -, rfl⟩ := Option.map_eq_some_iff.mp hstep
    exact Or.inl ⟨other, hmem⟩
  | runImmediate node index stale deleted =>
    obtain ⟨_, -, rfl⟩ := Option.map_eq_some_iff.mp hstep
    exact Or.inl (hchanged rfl fun _ hcallback ↦ List.mem_of_mem_eraseIdx hcallback)
  | contactAdded node contact =>
    cases hstep
    rcases mem_immediates_of_nodes rfl hmem with hold | hnew
    · exact Or.inl ⟨other, hold⟩
    · rcases List.mem_append.mp hnew with hold | hkey
      · exact Or.inl ⟨node, hold⟩
      · obtain ⟨_, -, hsame⟩ := List.mem_map.mp hkey
        cases hsame
  | expire node key creator =>
    obtain ⟨_, -, rfl⟩ := Option.map_eq_some_iff.mp hstep
    exact Or.inl (hchanged rfl fun _ hcallback ↦ hcallback)
  | destroy node =>
    cases hstep
    exact Or.inl ⟨other, hmem⟩

/-- What a node sends it has in its store or in a callback. -/
theorem inFlight_step {message : ReplicateMessage Data} (hmem : message ∈ after.inFlight) :
    Circulates state message.entry.version := by
  have hold : message ∈ state.inFlight → Circulates state message.entry.version :=
    fun hmessage ↦ .inFlight message hmessage rfl
  cases event with
  | storeData | storeLocally | neighborsChange | contactAdded | markAsDeleted =>
    cases hstep
    exact hold hmem
  | deliver index | lose index =>
    obtain ⟨_, -, rfl⟩ := Option.map_eq_some_iff.mp hstep
    exact hold (List.mem_of_mem_eraseIdx hmem)
  | runImmediate node index stale deleted =>
    obtain ⟨callback, hcallback, rfl⟩ := Option.map_eq_some_iff.mp hstep
    rcases List.mem_append.mp hmem with hbefore | hsent
    · exact hold hbefore
    · cases callback with
      | entry dataEntry target =>
        obtain rfl := List.mem_singleton.mp hsent
        exact .waiting node target dataEntry (List.mem_of_getElem? hcallback) rfl
      | key dataKey target =>
        obtain ⟨dataEntry, hentry, rfl⟩ := List.mem_map.mp hsent
        obtain ⟨creator, hversion⟩ := LocalDataStore.exists_versionAt_of_mem_values hentry
        exact .stored node dataKey creator hversion
  | expire node key creator =>
    obtain ⟨_, -, rfl⟩ := Option.map_eq_some_iff.mp hstep
    exact hold hmem
  | destroy node =>
    cases hstep
    rcases List.mem_append.mp hmem with hbefore | hsent
    · exact hold hbefore
    · obtain ⟨dataEntry, hentry, hneighbor⟩ := List.mem_flatMap.mp hsent
      obtain ⟨_, -, rfl⟩ := List.mem_map.mp hneighbor
      obtain ⟨key, creator, hversion⟩ := LocalDataStore.exists_versionAt_of_mem_allValues hentry
      exact .stored node key creator hversion

/-- No version comes from nowhere. -/
theorem circulates_step {version : Version Data} (hcirculates : Circulates after version) :
    version ∈ after.created ∨ Circulates state version := by
  have horigin : (version ∈ after.created ∨
      ∃ message ∈ state.inFlight, message.entry.version = version) →
        version ∈ after.created ∨ Circulates state version :=
    Or.imp_right fun ⟨message, hmessage, hversion⟩ ↦ .inFlight message hmessage hversion
  cases hcirculates with
  | stored node key creator hversion =>
    rcases versionAt_step hstep hversion with hold | ⟨-, -, hentry⟩
    · exact Or.inr (.stored node key creator hold)
    · exact horigin hentry
  | waiting node target dataEntry hcallback hversion =>
    subst hversion
    rcases immediates_step hstep hcallback with ⟨other, hold⟩ | ⟨message, hmessage, rfl⟩
    · exact Or.inr (.waiting other target dataEntry hold rfl)
    · exact Or.inr (.inFlight message hmessage rfl)
  | inFlight message hmessage hversion =>
    exact Or.inr (hversion ▸ inFlight_step hstep hmessage)
  | received node hreceived =>
    rcases step_effect hstep with hquiet | ⟨changed, entry, hstores, hentry⟩ |
      ⟨changed, _, _, hexpires⟩
    · exact Or.inr (.received node (hquiet.received ▸ hreceived))
    · rw [hstores.received] at hreceived
      rcases List.mem_cons.mp hreceived with hnew | hold
      · obtain ⟨-, rfl⟩ := Prod.mk.inj hnew
        refine horigin (hentry.imp_right ?_)
        rintro ⟨message, hmessage, rfl⟩
        exact ⟨message, hmessage, rfl⟩
      · exact Or.inr (.received node hold)
    · exact Or.inr (.received node (hexpires.received ▸ hreceived))

end Step

/-! ### Runs -/

/-- The states of all runs. -/
abbrev Reaches (getPeerDistance : DhtAddress → DhtAddress → Distance) (redundancyFactor : ℕ)
    (redundancyFactor_ne_zero : redundancyFactor ≠ 0) : State Data → Prop :=
  Transition.Reachable (step getPeerDistance redundancyFactor redundancyFactor_ne_zero)
    (fun _ _ ↦ True) Start

theorem keyed_of_reachable
    (hreachable : Reaches getPeerDistance redundancyFactor redundancyFactor_ne_zero state) :
    Keyed state := by
  refine hreachable.invariant (fun start hstart node key creator version hversion ↦ ?_)
    fun _ _ _ _ hkeyed _ hstep ↦ keyed_step hstep hkeyed
  rw [State.store, hstart.stores] at hversion
  cases hversion

theorem created_of_circulates
    (hreachable : Reaches getPeerDistance redundancyFactor redundancyFactor_ne_zero state)
    {version : Version Data} (hcirculates : Circulates state version) :
    version ∈ state.created := by
  refine Transition.Reachable.invariant
    (?_ : ∀ state, _ → ∀ version, Circulates state version → version ∈ state.created) ?_ hreachable
    version hcirculates
  · intro start hstart version hcirculates
    cases hcirculates with
    | stored node key creator hversion =>
      rw [State.store, hstart.stores] at hversion
      cases hversion
    | waiting node target dataEntry hcallback hversion =>
      rw [hstart.immediates] at hcallback
      cases hcallback
    | inFlight message hmessage hversion =>
      rw [hstart.inFlight] at hmessage
      cases hmessage
    | received node hreceived =>
      rw [hstart.received] at hreceived
      cases hreceived
  · intro before event next _ hbefore _ hstep version hcirculates
    rcases circulates_step hstep hcirculates with hcreated | hold
    · exact hcreated
    · exact created_step hstep version (hbefore version hold)

/-! ### How often a version is news -/

/-- What a node holds it holds after it was given an entry. -/
theorem Stores.holds {entry : DataEntry Data}
    (hstores : Stores redundancyFactor state after node entry) {other : DhtAddress}
    {version : Version Data} (hholds : (state.store other).Holds version) :
    (after.store other).Holds version := by
  by_cases heq : other = node
  · subst heq
    exact (LocalDataStore.holds_congr hstores.self).mpr (hholds.storeEntry entry)
  · rw [hstores.others other heq]
    exact hholds

/-- The node holds the entry that it was given. -/
theorem Stores.holds_entry {entry : DataEntry Data}
    (hstores : Stores redundancyFactor state after node entry) :
    (after.store node).Holds entry.version :=
  (LocalDataStore.holds_congr hstores.self).mpr
    (LocalDataStore.holds_storeEntry (state.store node) entry)

/-- What is held after an entry expired was held before, and what is not was that entry. -/
theorem Expires.holds_iff {key creator : DhtAddress}
    (hexpires : Expires state after node key creator) {other : DhtAddress}
    {version : Version Data} : (after.store other).Holds version ↔
      (state.store other).Holds version ∧
        ¬ (node, key, creator) = (other, version.key, version.creator) := by
  by_cases heq : other = node
  · subst heq
    unfold LocalDataStore.Holds
    rw [hexpires.self]
    simp only [Prod.mk.injEq, true_and]
    split_ifs with hsame
    · exact iff_of_false nofun fun hboth ↦ hboth.2 ⟨hsame.1.symm, hsame.2.symm⟩
    · exact (and_iff_left fun hother ↦ hsame ⟨hother.1.symm, hother.2.symm⟩).symm
  · rw [hexpires.others other heq]
    exact (and_iff_left fun hsame ↦ heq (Prod.mk.inj hsame).1.symm).symm

section Counting

variable [DecidableEq Data]

/-- A node accepted a version at most once for every time that its entry expired, and once more if
it holds the version; it passed every accepted version on to no more nodes than there are storers;
and what it received it holds, unless the entry expired. -/
structure Counted (redundancyFactor : ℕ) (state : State Data) : Prop where
  accepted : ∀ node version, state.accepted.count (node, version) ≤
    state.expired.count (node, version.key, version.creator) +
      if (state.store node).Holds version then 1 else 0
  gossiped : ∀ node, (state.gossiped.countP fun entry ↦ entry.1 = node) ≤
    redundancyFactor * state.accepted.countP fun entry ↦ entry.1 = node
  accepted_received : ∀ entry ∈ state.accepted, entry ∈ state.received
  received : ∀ node version, (node, version) ∈ state.received →
    (node, version.key, version.creator) ∈ state.expired ∨ (state.store node).Holds version

theorem Counted.quiet (hcounted : Counted redundancyFactor state) (hquiet : Quiet state after) :
    Counted redundancyFactor after := by
  have hholds : ∀ node version, (after.store node).Holds version ↔
      (state.store node).Holds version :=
    fun node _ ↦ LocalDataStore.holds_congr (hquiet.versions node)
  refine ⟨fun node version ↦ ?_, fun node ↦ ?_, ?_, fun node version hreceived ↦ ?_⟩
  · rw [hquiet.accepted, hquiet.expired]
    simp only [hholds]
    exact hcounted.accepted node version
  · rw [hquiet.gossiped, hquiet.accepted]
    exact hcounted.gossiped node
  · rw [hquiet.accepted, hquiet.received]
    exact hcounted.accepted_received
  · rw [hquiet.expired, hholds]
    exact hcounted.received node version (hquiet.received ▸ hreceived)

theorem Counted.stores (hcounted : Counted redundancyFactor state) {entry : DataEntry Data}
    (hstores : Stores redundancyFactor state after node entry) :
    Counted redundancyFactor after := by
  have hle : ∀ other version, (if (state.store other).Holds version then 1 else 0) ≤
      if (after.store other).Holds version then 1 else 0 := by
    intro other version
    split_ifs with hbefore hafter hafter
    · exact le_rfl
    · exact absurd (hstores.holds hbefore) hafter
    · exact Nat.zero_le _
    · exact le_rfl
  refine ⟨fun other version ↦ ?_, fun other ↦ ?_, fun pair hpair ↦ ?_,
    fun other version hreceived ↦ ?_⟩
  · rw [hstores.expired]
    rcases hstores.passed with ⟨haccepted, -⟩ | ⟨hnews, haccepted, -⟩
    · rw [haccepted]
      exact (hcounted.accepted other version).trans (Nat.add_le_add_left (hle other version) _)
    · rw [haccepted]
      by_cases hsame : (node, entry.version) = (other, version)
      · -- the version was news, so the node did not hold it before
        obtain ⟨rfl, rfl⟩ := Prod.mk.inj hsame
        have hbefore := hcounted.accepted node entry.version
        have hnot : ¬ (state.store node).Holds entry.version := by
          rcases (state.store node).storeEntry_spec entry with ⟨-, hnot, -⟩ | ⟨hold, -⟩
          · exact hnot
          · rw [hnews] at hold
            cases hold
        rw [if_neg hnot] at hbefore
        rw [List.count_cons_self, if_pos hstores.holds_entry]
        exact Nat.succ_le_succ hbefore
      · rw [List.count_cons_of_ne hsame]
        exact (hcounted.accepted other version).trans (Nat.add_le_add_left (hle other version) _)
  · have hbefore := hcounted.gossiped other
    rcases hstores.passed with ⟨haccepted, hgossiped⟩ | ⟨-, haccepted, targets, htargets, hgossiped⟩
    · rw [haccepted, hgossiped]
      exact hbefore
    · rw [haccepted, hgossiped, List.countP_append, List.countP_cons, List.countP_replicate]
      by_cases heq : node = other
      · rw [if_pos (decide_eq_true heq), if_pos (decide_eq_true heq), Nat.mul_add, Nat.mul_one,
          Nat.add_comm]
        exact Nat.add_le_add hbefore htargets
      · rw [if_neg (by simpa using heq), if_neg (by simpa using heq), Nat.zero_add, Nat.add_zero]
        exact hbefore
  · rw [hstores.received]
    rcases hstores.passed with ⟨haccepted, -⟩ | ⟨-, haccepted, -⟩
    · rw [haccepted] at hpair
      exact List.mem_cons_of_mem _ (hcounted.accepted_received pair hpair)
    · rw [haccepted] at hpair
      rcases List.mem_cons.mp hpair with rfl | hold
      · exact List.mem_cons_self
      · exact List.mem_cons_of_mem _ (hcounted.accepted_received pair hold)
  · rw [hstores.received] at hreceived
    rw [hstores.expired]
    rcases List.mem_cons.mp hreceived with hnew | hold
    · obtain ⟨rfl, rfl⟩ := Prod.mk.inj hnew
      exact Or.inr hstores.holds_entry
    · exact (hcounted.received other version hold).imp_right hstores.holds

theorem Counted.expires (hcounted : Counted redundancyFactor state) {key creator : DhtAddress}
    (hexpires : Expires state after node key creator) : Counted redundancyFactor after := by
  refine ⟨fun other version ↦ ?_, fun other ↦ ?_, ?_, fun other version hreceived ↦ ?_⟩
  · rw [hexpires.accepted, hexpires.expired]
    have hbefore := hcounted.accepted other version
    simp only [hexpires.holds_iff]
    by_cases hsame : (node, key, creator) = (other, version.key, version.creator)
    · rw [← hsame] at hbefore ⊢
      rw [List.count_cons_self, if_neg fun hboth ↦ hboth.2 rfl]
      split_ifs at hbefore
      · exact hbefore
      · exact hbefore.trans (Nat.le_succ _)
    · rw [List.count_cons_of_ne hsame]
      simp only [hsame, not_false_eq_true, and_true]
      exact hbefore
  · rw [hexpires.gossiped, hexpires.accepted]
    exact hcounted.gossiped other
  · rw [hexpires.accepted, hexpires.received]
    exact hcounted.accepted_received
  · rw [hexpires.received] at hreceived
    rw [hexpires.expired, hexpires.holds_iff]
    rcases hcounted.received other version hreceived with hold | hholds
    · exact Or.inl (List.mem_cons_of_mem _ hold)
    · by_cases hsame : (node, key, creator) = (other, version.key, version.creator)
      · rw [← hsame]
        exact Or.inl List.mem_cons_self
      · exact Or.inr ⟨hholds, hsame⟩

theorem counted_step (hcounted : Counted redundancyFactor state)
    (hstep : step getPeerDistance redundancyFactor redundancyFactor_ne_zero state event =
      some after) : Counted redundancyFactor after := by
  rcases step_effect hstep with hquiet | ⟨_, _, hstores, -⟩ | ⟨_, _, _, hexpires⟩
  · exact hcounted.quiet hquiet
  · exact hcounted.stores hstores
  · exact hcounted.expires hexpires

theorem counted_of_reachable
    (hreachable : Reaches getPeerDistance redundancyFactor redundancyFactor_ne_zero state) :
    Counted redundancyFactor state := by
  refine hreachable.invariant (fun start hstart ↦ ?_)
    fun _ _ _ _ hcounted _ hstep ↦ counted_step hcounted hstep
  refine ⟨fun node version ↦ ?_, fun node ↦ ?_, ?_, fun node version hreceived ↦ ?_⟩
  · rw [hstart.accepted]
    exact Nat.zero_le _
  · rw [hstart.gossiped]
    exact Nat.zero_le _
  · rw [hstart.accepted]
    exact nofun
  · rw [hstart.received] at hreceived
    cases hreceived

/-- The versions that a node accepted, one after the other. -/
def acceptedBy (state : State Data) (node : DhtAddress) : List (Version Data) :=
  (state.accepted.filter fun entry ↦ entry.1 = node).map Prod.snd

theorem count_acceptedBy (state : State Data) (node : DhtAddress) (version : Version Data) :
    (acceptedBy state node).count version = state.accepted.count (node, version) := by
  unfold acceptedBy
  induction state.accepted with
  | nil => rfl
  | cons entry accepted ih =>
    obtain ⟨other, stored⟩ := entry
    rw [List.filter_cons]
    by_cases heq : other = node
    · subst heq
      rw [if_pos (decide_eq_true rfl), List.map_cons, List.count_cons, List.count_cons, ih]
      simp
    · have hne : (other, stored) ≠ (node, version) := fun hsame ↦ heq (Prod.mk.inj hsame).1
      rw [if_neg (by simpa using heq), ih, List.count_cons_of_ne hne]

/-- There is no storm of replications, whatever happens in whatever order: for every version that
was created a node passes an entry on at most once, and once more for each time that its entry
expired, each time to no more nodes than there are storers. -/
theorem gossip_bounded
    (hreachable : Reaches getPeerDistance redundancyFactor redundancyFactor_ne_zero state)
    (node : DhtAddress) :
    (state.gossiped.countP fun entry ↦ entry.1 = node) ≤
      redundancyFactor * ∑ version ∈ state.created.toFinset,
        (1 + state.expired.count (node, version.key, version.creator)) := by
  have hcounted := counted_of_reachable hreachable
  have hlength : (state.accepted.countP fun entry ↦ entry.1 = node) =
      (acceptedBy state node).length := by
    rw [acceptedBy, List.length_map, List.countP_eq_length_filter]
  have hsubset : (acceptedBy state node).toFinset ⊆ state.created.toFinset := by
    intro version hversion
    rw [List.mem_toFinset] at hversion ⊢
    obtain ⟨⟨other, stored⟩, hstored, rfl⟩ := List.mem_map.mp hversion
    have hreceived := hcounted.accepted_received _ (List.mem_filter.mp hstored).1
    exact created_of_circulates hreachable (.received other hreceived)
  refine (hcounted.gossiped node).trans (Nat.mul_le_mul_left _ ?_)
  calc (state.accepted.countP fun entry ↦ entry.1 = node)
      = ∑ version ∈ (acceptedBy state node).toFinset, (acceptedBy state node).count version := by
        rw [hlength, List.sum_toFinset_count_eq_length]
    _ ≤ ∑ version ∈ (acceptedBy state node).toFinset,
          (1 + state.expired.count (node, version.key, version.creator)) := by
        refine Finset.sum_le_sum fun version _ ↦ ?_
        rw [count_acceptedBy]
        refine (hcounted.accepted node version).trans ?_
        rw [Nat.add_comm]
        exact Nat.add_le_add_right (by split_ifs <;> decide) _
    _ ≤ ∑ version ∈ state.created.toFinset,
          (1 + state.expired.count (node, version.key, version.creator)) :=
        Finset.sum_le_sum_of_subset hsubset

end Counting

/-- A version for the key zero, created by node 4. -/
def smallVersion : Version Unit :=
  ⟨(smallNode 0).nodeId, (), (smallNode 4).nodeId,
    ⟨1, 0, Timestamp.one_safe, Timestamp.zero_lt⟩⟩

/-- Nothing has happened. -/
def noNodes : State Unit := ⟨fun _ ↦ ⟨[], .empty, []⟩, [], [], [], [], [], []⟩

theorem start_noNodes : Start noNodes :=
  ⟨fun _ ↦ rfl, fun _ ↦ rfl, rfl, rfl, rfl, rfl, rfl, rfl⟩

/-- Node 4 stores the version, and replicates it to its new neighbour 1, which is closer to the key
and passes it on to its neighbour 2. -/
def replicateTwice : List (Event Unit) :=
  [.storeData (smallNode 4).nodeId smallVersion,
    .neighborsChange (smallNode 4).nodeId [smallNode 1],
    .contactAdded (smallNode 4).nodeId (smallNode 1),
    .runImmediate (smallNode 4).nodeId 0 false false,
    .neighborsChange (smallNode 1).nodeId [smallNode 2], .deliver 0]

theorem run_replicateTwice : ∃ state,
    Transition.run (step kBucketDistance 2 (by decide)) noNodes replicateTwice = some state ∧
      state.gossiped = [((smallNode 1).nodeId, smallVersion)] ∧
      state.created = [smallVersion] ∧ state.expired = [] ∧
      ((smallNode 1).nodeId, smallVersion) ∈ state.received := by
  have hrun : (Transition.run (step kBucketDistance 2 (by decide)) noNodes replicateTwice).map
      (fun state ↦ (state.gossiped, state.created, state.expired.isEmpty,
        decide (((smallNode 1).nodeId, smallVersion) ∈ state.received))) =
      some ([((smallNode 1).nodeId, smallVersion)], [smallVersion], true, true) := by
    decide +kernel
  obtain ⟨state, hstate, hfacts⟩ := Option.map_eq_some_iff.mp hrun
  simp only [Prod.mk.injEq] at hfacts
  obtain ⟨hgossiped, hcreated, hexpired, hreceived⟩ := hfacts
  exact ⟨state, hstate, hgossiped, hcreated, List.isEmpty_iff.mp hexpired,
    of_decide_eq_true hreceived⟩

/-- Node 1 passed the version on to one node. -/
theorem gossip_bounded_twice : ∃ state : State Unit,
    state.gossiped = [((smallNode 1).nodeId, smallVersion)] ∧
      (state.gossiped.countP fun entry ↦ entry.1 = (smallNode 1).nodeId) ≤
        2 * ∑ version ∈ state.created.toFinset, (1 + state.expired.count
          ((smallNode 1).nodeId, version.key, version.creator)) := by
  obtain ⟨state, hstate, hgossiped, -⟩ := run_replicateTwice
  have hreachable : Reaches kBucketDistance 2 (by decide) state :=
    .of_run _ (fun _ _ _ ↦ trivial) (.start start_noNodes) hstate
  exact ⟨state, hgossiped, gossip_bounded hreachable (smallNode 1).nodeId⟩

end PomboStorageNode.Dht.ReplicationNetwork
