import PomboStorageNode.Dht.RingContactList
import PomboStorageNode.Library.OrderedMap
import PomboStorageNode.Library.Transition

/-!
# Known peers

`PeerManager.ts` keeps what a node knows of others in five collections: the neighbors, in a
k-bucket, the nearby contacts, sorted by distance, the contacts on the ring, random contacts, and
the ids of active ones. `removeContact` takes a node out of all of them, but it finds the entries on
the ring through the nearby contacts, and the removal from these may put the node into the random
contacts in place of another one for a moment. `RemovesRing` and `KeepsRandom` are the conditions
under which it removes the node and nothing else.
-/

set_option autoImplicit false

namespace PomboStorageNode.Dht

open Library

/-! ### Random contacts -/

/-- `RandomContactList`: different contacts, the one that was added first in front. -/
structure RandomContactList where
  localNodeId : DhtAddress
  maxSize : ℕ
  contacts : List PeerDescriptor
  nodup : (contacts.map Contact.nodeId).Nodup

namespace RandomContactList

/-- `randomness`. -/
def randomness : ℚ := Binary64.round (1 / 5)

/-- The constructor. -/
def create (localNodeId : DhtAddress) (maxSize : ℕ) : RandomContactList :=
  ⟨localNodeId, maxSize, [], List.nodup_nil⟩

/-- The ids of the contacts. -/
def ids (list : RandomContactList) : List DhtAddress := list.contacts.map Contact.nodeId

/-- The contacts that are left to make room for a new one. -/
def room (list : RandomContactList) : List PeerDescriptor :=
  if list.contacts.length = list.maxSize ∧ 0 < list.contacts.length then list.contacts.tail
  else list.contacts

theorem room_sublist (list : RandomContactList) : list.room.Sublist list.contacts := by
  unfold room
  split_ifs
  · exact List.tail_sublist _
  · exact List.Sublist.refl _

/-- `addContact`, with the number that is drawn. -/
def addContact (list : RandomContactList) (contact : PeerDescriptor) (roll : ℚ) :
    RandomContactList :=
  if list.localNodeId = contact.nodeId then list
  else if hnew : contact.nodeId ∈ list.ids then list
  else if roll < randomness then
    { list with
      contacts := list.room ++ [contact]
      nodup := by
        rw [List.map_append, List.map_singleton]
        refine List.nodup_append.mpr ⟨list.nodup.sublist (list.room_sublist.map _),
          List.nodup_singleton _, ?_⟩
        rintro other hother _ hlast rfl
        rw [List.mem_singleton] at hlast
        exact hnew (hlast ▸ (list.room_sublist.map _).subset hother) }
  else list

/-- `removeContact`. -/
def removeContact (list : RandomContactList) (nodeId : DhtAddress) : RandomContactList :=
  { list with
    contacts := list.contacts.filter (·.nodeId ≠ nodeId)
    nodup := list.nodup.sublist (List.filter_sublist.map _) }

theorem mem_ids_removeContact {list : RandomContactList} {nodeId other : DhtAddress} :
    other ∈ (list.removeContact nodeId).ids ↔ other ∈ list.ids ∧ other ≠ nodeId := by
  simp only [ids, removeContact, List.mem_map, List.mem_filter, decide_eq_true_eq]
  constructor
  · rintro ⟨contact, ⟨hmem, hne⟩, rfl⟩
    exact ⟨⟨contact, hmem, rfl⟩, hne⟩
  · rintro ⟨⟨contact, hmem, rfl⟩, hne⟩
    exact ⟨contact, ⟨hmem, hne⟩, rfl⟩

/-- Whether a contact that is added takes the place of another one. -/
def Evicts (list : RandomContactList) (contact : PeerDescriptor) (roll : ℚ) : Prop :=
  list.localNodeId ≠ contact.nodeId ∧ contact.nodeId ∉ list.ids ∧ roll < randomness ∧
    list.contacts.length = list.maxSize ∧ 0 < list.contacts.length

/-- Adding a contact and removing it again leaves the others, unless it took the place of one. -/
theorem mem_ids_add_remove_iff {list : RandomContactList} {contact : PeerDescriptor} {roll : ℚ} :
    (∀ other, other ∈ ((list.addContact contact roll).removeContact contact.nodeId).ids ↔
      other ∈ list.ids ∧ other ≠ contact.nodeId) ↔ ¬list.Evicts contact roll := by
  constructor
  · rintro hall ⟨hlocal, hnew, hroll, hfull, hpos⟩
    -- the contact in front is evicted
    obtain ⟨first, rest, hcontacts⟩ := List.exists_cons_of_length_pos hpos
    have hfirst : first.nodeId ∈ list.ids := by
      rw [ids, hcontacts]
      exact List.mem_cons_self
    have hne : first.nodeId ≠ contact.nodeId := fun heq ↦ hnew (heq ▸ hfirst)
    have hkept := (mem_ids_removeContact.mp ((hall first.nodeId).mpr ⟨hfirst, hne⟩)).1
    have hnodup := list.nodup
    rw [hcontacts, List.map_cons, List.nodup_cons] at hnodup
    rw [addContact, if_neg hlocal, dif_neg hnew, if_pos hroll, ids] at hkept
    dsimp only at hkept
    rw [room, if_pos ⟨hfull, hpos⟩, hcontacts, List.tail_cons, List.map_append, List.mem_append,
      List.map_singleton, List.mem_singleton] at hkept
    exact hkept.elim hnodup.1 hne
  · intro hnot other
    rw [mem_ids_removeContact]
    refine and_congr_left fun hne ↦ ?_
    unfold addContact
    split_ifs with hlocal hnew hroll
    · exact Iff.rfl
    · exact Iff.rfl
    · have hroom : list.room = list.contacts :=
        if_neg fun hfull ↦ hnot ⟨hlocal, hnew, hroll, hfull⟩
      rw [ids, ids]
      dsimp only
      rw [hroom, List.map_append, List.mem_append, List.map_singleton, List.mem_singleton,
        or_iff_left hne]
    · exact Iff.rfl

end RandomContactList

/-! ### The peer manager -/

/-- The k-buckets of the package. Removing an id removes the contact with exactly this id. -/
structure KBucketPackage where
  KBucket : Type
  new : DhtAddress → ℕ → KBucket
  toArray : KBucket → List PeerDescriptor
  get : KBucket → DhtAddress → Option PeerDescriptor
  add : KBucket → PeerDescriptor → KBucket
  remove : KBucket → DhtAddress → KBucket
  mem_remove : ∀ bucket id contact,
    contact ∈ toArray (remove bucket id) ↔ contact ∈ toArray bucket ∧ contact.nodeId ≠ id

/-- `PeerManagerOptions`. -/
structure PeerManagerOptions where
  numberOfNodesPerKBucket : ℕ
  maxContactCount : ℕ
  localNodeId : DhtAddress
  localPeerDescriptor : PeerDescriptor
  maxContactCount_ne_zero : maxContactCount ≠ 0

variable {Distance : Type*} [LinearOrder Distance]
  {getPeerDistance : DhtAddress → DhtAddress → Distance} {kBucket : KBucketPackage}
  {orderedMap : OrderedMapPackage PeerDescriptor}

/-- `PeerManager`. -/
structure PeerManager (getPeerDistance : DhtAddress → DhtAddress → Distance)
    (kBucket : KBucketPackage) (orderedMap : OrderedMapPackage PeerDescriptor) where
  options : PeerManagerOptions
  neighbors : kBucket.KBucket
  nearbyContacts : SortedContactList getPeerDistance Location
  ringContacts : RingContactList orderedMap
  randomContacts : RandomContactList
  activeContacts : OrderedSet DhtAddress
  stopped : Bool

namespace PeerManager

/-- The options of the nearby contacts. -/
def nearbyContactsOptions (options : PeerManagerOptions) : SortedContactListOptions DhtAddress where
  referenceId := options.localNodeId
  allowToContainReferenceId := false
  maxSize := some options.maxContactCount
  nodeIdDistanceLimit := none
  excludedNodeIds := []
  maxSize_ne_zero := fun hzero ↦ options.maxContactCount_ne_zero (Option.some.inj hzero)

/-- The options of the list in which `onKBucketPing` sorts the old contacts. -/
def sortingListOptions (options : PeerManagerOptions) : SortedContactListOptions DhtAddress where
  referenceId := options.localNodeId
  allowToContainReferenceId := false
  maxSize := none
  nodeIdDistanceLimit := none
  excludedNodeIds := []
  maxSize_ne_zero := nofun

/-- The constructor. -/
def create (getPeerDistance : DhtAddress → DhtAddress → Distance) (kBucket : KBucketPackage)
    (orderedMap : OrderedMapPackage PeerDescriptor) (options : PeerManagerOptions) :
    PeerManager getPeerDistance kBucket orderedMap where
  options := options
  neighbors := kBucket.new options.localNodeId options.numberOfNodesPerKBucket
  nearbyContacts := .create getPeerDistance Location (nearbyContactsOptions options)
  ringContacts :=
    .create orderedMap (getRingIdRawFromPeerDescriptor options.localPeerDescriptor) []
  randomContacts := .create options.localNodeId options.maxContactCount
  activeContacts := .empty
  stopped := false

/-- The handlers of the events of the nearby contacts: a contact that is removed becomes a random
one. -/
def onNearbyContactEvents (roll : ℚ) (events : List (ContactEvent DhtAddress Location))
    (manager : PeerManager getPeerDistance kBucket orderedMap) :
    PeerManager getPeerDistance kBucket orderedMap :=
  { manager with randomContacts := events.foldl (fun randomContacts event ↦
      match event with
      | .contactRemoved contact =>
        if manager.stopped then randomContacts else randomContacts.addContact contact roll
      | .contactAdded _ => randomContacts) manager.randomContacts }

/-- `addContact`, with the numbers that are drawn for the contact and for one that it displaces. -/
def addContact (peerDescriptor : PeerDescriptor) (roll displacedRoll : ℚ)
    (manager : PeerManager getPeerDistance kBucket orderedMap) :
    PeerManager getPeerDistance kBucket orderedMap :=
  if manager.stopped then manager
  else if peerDescriptor.nodeId = manager.options.localNodeId then manager
  else
    let isInNeighbors := (kBucket.get manager.neighbors peerDescriptor.nodeId).isSome
    let isInNearbyContacts := (manager.nearbyContacts.getContact peerDescriptor.nodeId).isSome
    let isInRingContacts := (manager.ringContacts.getContact peerDescriptor).isSome
    let manager :=
      if isInNeighbors || isInNearbyContacts then
        { manager with randomContacts := manager.randomContacts.addContact peerDescriptor roll }
      else manager
    let manager :=
      if !isInNeighbors then
        { manager with neighbors := kBucket.add manager.neighbors peerDescriptor }
      else manager
    let manager :=
      if !isInNearbyContacts then
        let added := manager.nearbyContacts.addContact peerDescriptor
        onNearbyContactEvents displacedRoll added.2 { manager with nearbyContacts := added.1 }
      else manager
    if !isInRingContacts then
      { manager with ringContacts := manager.ringContacts.addContact peerDescriptor }
    else manager

/-- `removeContact`, with the number that is drawn for the contact. -/
def removeContact (nodeId : DhtAddress) (roll : ℚ)
    (manager : PeerManager getPeerDistance kBucket orderedMap) :
    PeerManager getPeerDistance kBucket orderedMap :=
  if manager.stopped then manager
  else
    let removed := manager.nearbyContacts.removeContact nodeId
    let manager := { manager with
      ringContacts :=
        manager.ringContacts.removeContact (manager.nearbyContacts.getContact nodeId)
      neighbors := kBucket.remove manager.neighbors nodeId }
    let manager :=
      onNearbyContactEvents roll removed.2 { manager with nearbyContacts := removed.1 }
    { manager with
      activeContacts := manager.activeContacts.delete nodeId
      randomContacts := manager.randomContacts.removeContact nodeId }

/-- `removeNeighbor`. -/
def removeNeighbor (nodeId : DhtAddress)
    (manager : PeerManager getPeerDistance kBucket orderedMap) :
    PeerManager getPeerDistance kBucket orderedMap :=
  { manager with neighbors := kBucket.remove manager.neighbors nodeId }

/-- `setContactActive`. -/
def setContactActive (nodeId : DhtAddress)
    (manager : PeerManager getPeerDistance kBucket orderedMap) :
    PeerManager getPeerDistance kBucket orderedMap :=
  { manager with activeContacts := manager.activeContacts.add nodeId }

/-- `onKBucketPing`: the furthest of the old contacts makes room for the new one. -/
def onKBucketPing (oldContacts : List PeerDescriptor) (newContact : PeerDescriptor)
    (manager : PeerManager getPeerDistance kBucket orderedMap) :
    Option (PeerManager getPeerDistance kBucket orderedMap) :=
  if manager.stopped then some manager
  else
    let sortingList := (SortedContactList.create getPeerDistance Location
      (sortingListOptions manager.options)).addContacts oldContacts
    sortingList.contacts.getLast?.map fun removable ↦
      { manager with
        neighbors := kBucket.add (kBucket.remove manager.neighbors removable.nodeId) newContact }

/-- `getNearbyActiveContactNotInNeighbors`. -/
def getNearbyActiveContactNotInNeighbors
    (manager : PeerManager getPeerDistance kBucket orderedMap) : Option PeerDescriptor :=
  manager.nearbyContacts.contacts.find? fun contact ↦
    (kBucket.get manager.neighbors contact.nodeId).isNone &&
      decide (contact.nodeId ∈ manager.activeContacts)

/-- `addNearbyContactToNeighbors`. -/
def addNearbyContactToNeighbors (roll displacedRoll : ℚ)
    (manager : PeerManager getPeerDistance kBucket orderedMap) :
    PeerManager getPeerDistance kBucket orderedMap :=
  if manager.stopped then manager
  else match manager.getNearbyActiveContactNotInNeighbors with
    | some closest => manager.addContact closest roll displacedRoll
    | none => manager

/-- What happens at a peer manager. A ping of a new neighbor fails, or one of `pruneOfflineNodes`,
which goes on with a removal. The numbers are those that are drawn. -/
inductive Event
  | addContact (peerDescriptor : PeerDescriptor) (roll displacedRoll : ℚ)
  | removeContact (nodeId : DhtAddress) (roll : ℚ)
  | removeNeighbor (nodeId : DhtAddress)
  | setContactActive (nodeId : DhtAddress)
  | kBucketPing (oldContacts : List PeerDescriptor) (newContact : PeerDescriptor)
  | pingFailed (nodeId : DhtAddress) (removedRoll roll displacedRoll : ℚ)
  | pruned (nodeId : DhtAddress) (roll : ℚ)

/-- One event. -/
def step (manager : PeerManager getPeerDistance kBucket orderedMap) :
    Event → Option (PeerManager getPeerDistance kBucket orderedMap)
  | .addContact peerDescriptor roll displacedRoll =>
    some (manager.addContact peerDescriptor roll displacedRoll)
  | .removeContact nodeId roll => some (manager.removeContact nodeId roll)
  | .removeNeighbor nodeId => some (manager.removeNeighbor nodeId)
  | .setContactActive nodeId => some (manager.setContactActive nodeId)
  | .kBucketPing oldContacts newContact => manager.onKBucketPing oldContacts newContact
  | .pingFailed nodeId removedRoll roll displacedRoll =>
    some ((manager.removeContact nodeId removedRoll).addNearbyContactToNeighbors roll
      displacedRoll)
  | .pruned nodeId roll =>
    some (removeContact nodeId roll
      { manager with activeContacts := manager.activeContacts.delete nodeId })

/-! ### What a removal does -/

/-- Whether the k-bucket has a contact with an id. -/
def IsNeighbor (manager : PeerManager getPeerDistance kBucket orderedMap) (nodeId : DhtAddress) :
    Prop :=
  ∃ contact ∈ kBucket.toArray manager.neighbors, contact.nodeId = nodeId

/-- A collection loses a node and nothing else. -/
def LosesOnly (nodeId : DhtAddress) (before after : DhtAddress → Prop) : Prop :=
  ∀ other, after other ↔ before other ∧ other ≠ nodeId

/-- `removeContact` removes the node from the five collections, and nothing else. -/
structure RemovesOnly (manager : PeerManager getPeerDistance kBucket orderedMap)
    (nodeId : DhtAddress) (roll : ℚ) : Prop where
  neighbors : LosesOnly nodeId manager.IsNeighbor (manager.removeContact nodeId roll).IsNeighbor
  nearbyContacts : LosesOnly nodeId (manager.nearbyContacts.has · = true)
    ((manager.removeContact nodeId roll).nearbyContacts.has · = true)
  ringContacts : LosesOnly nodeId manager.ringContacts.Contains
    (manager.removeContact nodeId roll).ringContacts.Contains
  randomContacts : LosesOnly nodeId (· ∈ manager.randomContacts.ids)
    (· ∈ (manager.removeContact nodeId roll).randomContacts.ids)
  activeContacts : LosesOnly nodeId (· ∈ manager.activeContacts)
    (· ∈ (manager.removeContact nodeId roll).activeContacts)

/-- The condition for the ring. A node that is not among the nearby contacts has no entry. Otherwise
all its entries are at the distances of the contact that is among them, and no other node has
entries at these distances only. -/
def RemovesRing (manager : PeerManager getPeerDistance kBucket orderedMap)
    (nodeId : DhtAddress) : Prop :=
  match manager.nearbyContacts.getContact nodeId with
  | none => ¬manager.ringContacts.Contains nodeId
  | some contact =>
    manager.ringContacts.OnlyAt nodeId (manager.ringContacts.leftDistance contact)
      (manager.ringContacts.rightDistance contact) ∧
    ∀ other, other ≠ nodeId → manager.ringContacts.Contains other →
      ¬manager.ringContacts.OnlyAt other (manager.ringContacts.leftDistance contact)
        (manager.ringContacts.rightDistance contact)

/-- The condition for the random contacts: a nearby contact does not take the place of a random one
before it is removed. -/
def KeepsRandom (manager : PeerManager getPeerDistance kBucket orderedMap) (nodeId : DhtAddress)
    (roll : ℚ) : Prop :=
  ∀ contact, manager.nearbyContacts.getContact nodeId = some contact →
    ¬manager.randomContacts.Evicts contact roll

/-- The entries that are left on the ring belong to nodes that were on it. -/
theorem contains_of_not_onlyAt {list : RingContactList orderedMap} {nodeId : DhtAddress}
    {left right : ℚ} (hnot : ¬list.OnlyAt nodeId left right) : list.Contains nodeId := by
  by_contra hcontains
  rw [RingContactList.Contains, not_or, not_not, not_not] at hcontains
  refine hnot ⟨?_, ?_⟩
  · rw [hcontains.1]
    exact List.forall_mem_nil _
  · rw [hcontains.2]
    exact List.forall_mem_nil _

theorem losesOnly_ring_iff {manager : PeerManager getPeerDistance kBucket orderedMap}
    {nodeId : DhtAddress} :
    LosesOnly nodeId manager.ringContacts.Contains (manager.ringContacts.removeContact
        (manager.nearbyContacts.getContact nodeId)).Contains ↔
      manager.RemovesRing nodeId := by
  unfold RemovesRing
  cases manager.nearbyContacts.getContact nodeId with
  | none =>
    refine ⟨fun hloses hcontains ↦ ((hloses nodeId).mp hcontains).2 rfl, fun hnot other ↦ ?_⟩
    exact ⟨fun hother ↦ ⟨hother, fun heq ↦ hnot (heq ▸ hother)⟩, And.left⟩
  | some contact =>
    dsimp only
    simp only [LosesOnly, RingContactList.contains_removeContact_iff]
    constructor
    · intro hloses
      refine ⟨?_, fun other hne hcontains ↦ (hloses other).mpr ⟨hcontains, hne⟩⟩
      by_contra hnot
      exact ((hloses nodeId).mp hnot).2 rfl
    · rintro ⟨honly, hothers⟩ other
      refine ⟨fun hnot ↦ ⟨contains_of_not_onlyAt hnot, fun heq ↦ hnot (heq ▸ honly)⟩, ?_⟩
      exact fun ⟨hcontains, hne⟩ ↦ hothers other hne hcontains

theorem losesOnly_random_iff {manager : PeerManager getPeerDistance kBucket orderedMap}
    {nodeId : DhtAddress} {roll : ℚ} (hstopped : manager.stopped = false) :
    LosesOnly nodeId (· ∈ manager.randomContacts.ids)
        (· ∈ (manager.removeContact nodeId roll).randomContacts.ids) ↔
      manager.KeepsRandom nodeId roll := by
  unfold KeepsRandom LosesOnly removeContact
  rw [if_neg (by rw [hstopped]; exact Bool.false_ne_true)]
  dsimp only [onNearbyContactEvents, SortedContactList.removeContact]
  cases hcontact : manager.nearbyContacts.getContact nodeId with
  | none =>
    refine iff_of_true (fun other ↦ ?_) nofun
    exact RandomContactList.mem_ids_removeContact
  | some contact =>
    obtain ⟨-, hid⟩ := SortedContactList.mem_of_getContact hcontact
    simp only [Option.map_some, Option.toList_some, List.foldl_cons, List.foldl_nil, hstopped,
      Bool.false_eq_true, if_false, Option.some.injEq, forall_eq']
    rw [← hid]
    exact RandomContactList.mem_ids_add_remove_iff

theorem removesOnly_iff {manager : PeerManager getPeerDistance kBucket orderedMap}
    {nodeId : DhtAddress} {roll : ℚ} (hstopped : manager.stopped = false) :
    manager.RemovesOnly nodeId roll ↔
      manager.RemovesRing nodeId ∧ manager.KeepsRandom nodeId roll := by
  have hrunning : ¬manager.stopped = true := by rw [hstopped]; exact Bool.false_ne_true
  have hring : (manager.removeContact nodeId roll).ringContacts =
      manager.ringContacts.removeContact (manager.nearbyContacts.getContact nodeId) := by
    rw [removeContact, if_neg hrunning]
    rfl
  constructor
  · intro hremoves
    exact ⟨losesOnly_ring_iff.mp (hring ▸ hremoves.ringContacts),
      (losesOnly_random_iff hstopped).mp hremoves.randomContacts⟩
  · rintro ⟨hremoves, hkeeps⟩
    refine ⟨fun other ↦ ?_, fun other ↦ ?_, hring ▸ losesOnly_ring_iff.mpr hremoves,
      (losesOnly_random_iff hstopped).mpr hkeeps, fun other ↦ ?_⟩
    · have hneighbors : (manager.removeContact nodeId roll).neighbors =
          kBucket.remove manager.neighbors nodeId := by
        rw [removeContact, if_neg hrunning]
        rfl
      unfold IsNeighbor
      rw [hneighbors]
      simp only [kBucket.mem_remove]
      constructor
      · rintro ⟨contact, ⟨hmem, hne⟩, rfl⟩
        exact ⟨⟨contact, hmem, rfl⟩, hne⟩
      · rintro ⟨⟨contact, hmem, rfl⟩, hne⟩
        exact ⟨contact, ⟨hmem, hne⟩, rfl⟩
    · have hnearby : (manager.removeContact nodeId roll).nearbyContacts =
          (manager.nearbyContacts.removeContact nodeId).1 := by
        rw [removeContact, if_neg hrunning]
        rfl
      rw [hnearby]
      exact SortedContactList.has_removeContact
    · have hactive : (manager.removeContact nodeId roll).activeContacts =
          manager.activeContacts.delete nodeId := by
        rw [removeContact, if_neg hrunning]
        rfl
      rw [hactive]
      exact OrderedSet.mem_delete

/-! ### Runs -/

/-- No event stops the manager. -/
theorem stopped_step {manager after : PeerManager getPeerDistance kBucket orderedMap}
    {event : Event} (hstep : manager.step event = some after) :
    after.stopped = manager.stopped := by
  have hadd (manager : PeerManager getPeerDistance kBucket orderedMap)
      (peerDescriptor : PeerDescriptor) (roll displacedRoll : ℚ) :
      (manager.addContact peerDescriptor roll displacedRoll).stopped = manager.stopped := by
    unfold addContact
    dsimp only
    split_ifs <;> rfl
  have hremove (manager : PeerManager getPeerDistance kBucket orderedMap) (nodeId : DhtAddress)
      (roll : ℚ) : (manager.removeContact nodeId roll).stopped = manager.stopped := by
    unfold removeContact
    split_ifs <;> rfl
  cases event with
  | addContact peerDescriptor roll displacedRoll =>
    obtain rfl := Option.some.inj hstep
    exact hadd manager peerDescriptor roll displacedRoll
  | removeContact nodeId roll =>
    obtain rfl := Option.some.inj hstep
    exact hremove manager nodeId roll
  | removeNeighbor nodeId =>
    obtain rfl := Option.some.inj hstep
    rfl
  | setContactActive nodeId =>
    obtain rfl := Option.some.inj hstep
    rfl
  | kBucketPing oldContacts newContact =>
    rw [step, onKBucketPing] at hstep
    split_ifs at hstep
    · obtain rfl := Option.some.inj hstep
      rfl
    · obtain ⟨removable, -, rfl⟩ := Option.map_eq_some_iff.mp hstep
      rfl
  | pingFailed nodeId removedRoll roll displacedRoll =>
    obtain rfl := Option.some.inj hstep
    refine Eq.trans ?_ (hremove manager nodeId removedRoll)
    unfold addNearbyContactToNeighbors
    split_ifs
    · rfl
    · cases (manager.removeContact nodeId removedRoll).getNearbyActiveContactNotInNeighbors with
      | none => rfl
      | some closest => exact hadd _ closest roll displacedRoll
  | pruned nodeId roll =>
    obtain rfl := Option.some.inj hstep
    exact hremove _ nodeId roll

/-- In every state of every run, a removal takes the node out of the five collections and leaves
everything else if and only if the conditions for the ring and for the random contacts hold. -/
theorem removesOnly_iff_of_reachable (options : PeerManagerOptions)
    (manager : PeerManager getPeerDistance kBucket orderedMap)
    (hreachable : Transition.Reachable step (fun _ _ ↦ True)
      (· = create getPeerDistance kBucket orderedMap options) manager)
    (nodeId : DhtAddress) (roll : ℚ) :
    manager.RemovesOnly nodeId roll ↔
      manager.RemovesRing nodeId ∧ manager.KeepsRandom nodeId roll := by
  refine removesOnly_iff ?_
  refine hreachable.invariant ?_ fun manager event after _ hmanager _ hstep ↦
    (stopped_step hstep).trans hmanager
  rintro manager rfl
  rfl

/-! ### Sample packages -/

/-- Ordered maps as lists of entries in ascending order. -/
def listMaps : OrderedMapPackage PeerDescriptor where
  OrderedMap := List (ℚ × PeerDescriptor)
  new := []
  entries map := map
  size map := map.length
  back map := map.getLast?
  getElementByKey map key := map.lookup key
  setElement map key value :=
    map.takeWhile (·.1 < key) ++ (key, value) :: map.dropWhile (·.1 ≤ key)
  eraseElementByKey map key := map.filter (·.1 ≠ key)
  eraseLast map := map.dropLast
  mem_eraseElementByKey map key entry := by simp

/-- A k-bucket that has not been split and is not full. -/
def listBucket : KBucketPackage where
  KBucket := List PeerDescriptor
  new _ _ := []
  toArray bucket := bucket
  get bucket id := bucket.find? (·.nodeId = id)
  add bucket contact := bucket ++ [contact]
  remove bucket id := bucket.filter (·.nodeId ≠ id)
  mem_remove bucket id contact := by simp

/-- An address with a given first and last byte, and zeros between them. -/
def sampleAddress (first last : UInt8) : DhtAddress :=
  ⟨first :: (List.replicate 18 0 ++ [last]), rfl⟩

/-- A node without a known place. -/
def samplePeer (first last : UInt8) : PeerDescriptor := ⟨sampleAddress first last, ⟨none, none⟩⟩

/-- The options of a node with the address zero. -/
def sampleOptions (maxContactCount : ℕ) (hne : maxContactCount ≠ 0) : PeerManagerOptions :=
  ⟨8, maxContactCount, sampleAddress 0 0, samplePeer 0 0, hne⟩

/-- A run at such a node. -/
def sampleRun (maxContactCount : ℕ) (hne : maxContactCount ≠ 0) (events : List Event) :
    Option (PeerManager kBucketDistance listBucket listMaps) :=
  Transition.run step (create kBucketDistance listBucket listMaps
    (sampleOptions maxContactCount hne)) events

instance decidableOnlyAt (list : RingContactList orderedMap) (nodeId : DhtAddress)
    (left right : ℚ) : Decidable (list.OnlyAt nodeId left right) :=
  inferInstanceAs (Decidable ((∀ _ ∈ _, _) ∧ ∀ _ ∈ _, _))

/-- `RemovesRing` of a node among the nearby contacts, evaluated: the other nodes on the ring are
those of its entries. -/
def removesRing? (manager : PeerManager getPeerDistance kBucket orderedMap)
    (nodeId : DhtAddress) : Bool :=
  match manager.nearbyContacts.getContact nodeId with
  | none => false
  | some contact =>
    let left := manager.ringContacts.leftDistance contact
    let right := manager.ringContacts.rightDistance contact
    decide (manager.ringContacts.OnlyAt nodeId left right) &&
      (orderedMap.entries manager.ringContacts.leftNeighbors ++
        orderedMap.entries manager.ringContacts.rightNeighbors).all fun entry ↦
          decide (entry.2.nodeId = nodeId) ||
            !decide (manager.ringContacts.OnlyAt entry.2.nodeId left right)

theorem removesRing_of_eval {manager : PeerManager getPeerDistance kBucket orderedMap}
    {nodeId : DhtAddress} (heval : removesRing? manager nodeId = true) :
    manager.RemovesRing nodeId := by
  unfold removesRing? at heval
  unfold RemovesRing
  cases hcontact : manager.nearbyContacts.getContact nodeId with
  | none =>
    rw [hcontact] at heval
    cases heval
  | some contact =>
    simp only [hcontact, Bool.and_eq_true, decide_eq_true_eq, List.all_eq_true] at heval
    refine ⟨heval.1, fun other hne hcontains ↦ ?_⟩
    obtain ⟨entry, hmem, rfl⟩ : ∃ entry ∈ orderedMap.entries manager.ringContacts.leftNeighbors ++
        orderedMap.entries manager.ringContacts.rightNeighbors, entry.2.nodeId = other := by
      rcases hcontains with hleft | hright
      · obtain ⟨entry, hentry⟩ := List.exists_mem_of_ne_nil _ hleft
        obtain ⟨hmem, hid⟩ := List.mem_filter.mp hentry
        exact ⟨entry, List.mem_append_left _ hmem, of_decide_eq_true hid⟩
      · obtain ⟨entry, hentry⟩ := List.exists_mem_of_ne_nil _ hright
        obtain ⟨hmem, hid⟩ := List.mem_filter.mp hentry
        exact ⟨entry, List.mem_append_right _ hmem, of_decide_eq_true hid⟩
    simpa [hne] using heval.2 entry hmem

/-- Two contacts, one of which is removed: it leaves the five collections, and the other one stays,
though an entry of it on the ring is lost. -/
theorem removes_closer_of_two :
    ∃ manager : PeerManager kBucketDistance listBucket listMaps,
      Transition.Reachable step (fun _ _ ↦ True) (· = create kBucketDistance listBucket listMaps
        (sampleOptions 2 (by decide))) manager ∧
      manager.nearbyContacts.getContactIds = [sampleAddress 0 1, sampleAddress 0 2] ∧
      manager.RemovesOnly (sampleAddress 0 1) 1 := by
  have hrun : (sampleRun 2 (by decide) [.addContact (samplePeer 0 2) 1 1,
      .addContact (samplePeer 0 1) 1 1]).map (fun manager ↦
        (manager.nearbyContacts.getContactIds, removesRing? manager (sampleAddress 0 1),
          manager.randomContacts.contacts)) =
      some ([sampleAddress 0 1, sampleAddress 0 2], true, []) := by
    decide +kernel
  obtain ⟨manager, hmanager, hfacts⟩ := Option.map_eq_some_iff.mp hrun
  simp only [Prod.mk.injEq] at hfacts
  obtain ⟨hnearby, hring, hrandom⟩ := hfacts
  have hreachable : Transition.Reachable step (fun _ _ ↦ True) (· = create kBucketDistance
      listBucket listMaps (sampleOptions 2 (by decide))) manager :=
    .of_run _ (fun _ _ _ ↦ trivial) (.start rfl) hmanager
  refine ⟨manager, hreachable, hnearby,
    (removesOnly_iff_of_reachable _ manager hreachable (sampleAddress 0 1) 1).mpr
      ⟨removesRing_of_eval hring, fun contact _ hevicts ↦ ?_⟩⟩
  obtain ⟨-, -, -, -, hpos⟩ := hevicts
  rw [hrandom] at hpos
  exact absurd hpos (Nat.lt_irrefl 0)

instance decidableContains (list : RingContactList orderedMap) (nodeId : DhtAddress) :
    Decidable (list.Contains nodeId) :=
  inferInstanceAs (Decidable (¬_ ∨ ¬_))

/-- With room for one nearby contact, a closer node displaces another one, which becomes a random
contact. When the other one is removed it stays on the ring, and the removal of the closer one costs
it its place among the random contacts. And of two nodes with one ring id, the removal of the second
takes the first one off the ring. -/
theorem removal_misses_and_takes_others :
    (∃ manager : PeerManager kBucketDistance listBucket listMaps,
      Transition.Reachable step (fun _ _ ↦ True) (· = create kBucketDistance listBucket listMaps
        (sampleOptions 1 (by decide))) manager ∧
      (manager.removeContact (sampleAddress 0 2) 1).ringContacts.Contains (sampleAddress 0 2) ∧
      sampleAddress 0 2 ∈ manager.randomContacts.ids ∧
      sampleAddress 0 2 ∉ (manager.removeContact (sampleAddress 0 1) 0).randomContacts.ids) ∧
    ∃ manager : PeerManager kBucketDistance listBucket listMaps,
      Transition.Reachable step (fun _ _ ↦ True) (· = create kBucketDistance listBucket listMaps
        (sampleOptions 2 (by decide))) manager ∧
      manager.ringContacts.Contains (sampleAddress 1 5) ∧
      ¬(manager.removeContact (sampleAddress 2 5) 1).ringContacts.Contains (sampleAddress 1 5) := by
  constructor
  · have hrun : (sampleRun 1 (by decide) [.addContact (samplePeer 0 2) 1 1,
        .addContact (samplePeer 0 1) 1 0]).any (fun manager ↦ decide
          ((manager.removeContact (sampleAddress 0 2) 1).ringContacts.Contains
            (sampleAddress 0 2) ∧ sampleAddress 0 2 ∈ manager.randomContacts.ids ∧
          sampleAddress 0 2 ∉
            (manager.removeContact (sampleAddress 0 1) 0).randomContacts.ids)) = true := by
      decide +kernel
    obtain ⟨manager, hmanager, hfacts⟩ := (Option.any_eq_true _ _).mp hrun
    exact ⟨manager, .of_run _ (fun _ _ _ ↦ trivial) (.start rfl) hmanager,
      of_decide_eq_true hfacts⟩
  · have hrun : (sampleRun 2 (by decide) [.addContact (samplePeer 1 5) 1 1,
        .addContact (samplePeer 2 5) 1 1]).any (fun manager ↦ decide
          (manager.ringContacts.Contains (sampleAddress 1 5) ∧
          ¬(manager.removeContact (sampleAddress 2 5) 1).ringContacts.Contains
            (sampleAddress 1 5))) = true := by
      decide +kernel
    obtain ⟨manager, hmanager, hfacts⟩ := (Option.any_eq_true _ _).mp hrun
    exact ⟨manager, .of_run _ (fun _ _ _ ↦ trivial) (.start rfl) hmanager,
      of_decide_eq_true hfacts⟩

end PeerManager

end PomboStorageNode.Dht
