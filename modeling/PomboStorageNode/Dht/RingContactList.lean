import PomboStorageNode.Dht.Identifiers
import PomboStorageNode.Dht.SortedContactList
import PomboStorageNode.Library.Binary64

/-!
# Contacts on the ring

The ring id of a node is made of its region, its IP address and the last seven bytes of its node id.
These are 120 bits, of which a number keeps 53: ring ids and distances are rounded, and different
nodes can have one ring id. `RingContactList.ts` keeps the closest contacts on both sides, in maps
whose keys are the distances. The maps are those of a package, and `OrderedMapPackage` says what the
list uses of it.
-/

set_option autoImplicit false

namespace PomboStorageNode.Dht

open Library

/-! ### Ring identifiers -/

/-- What a peer descriptor says of a node besides its id. -/
structure Location where
  region : Option UInt32
  ipAddress : Option UInt32
  deriving DecidableEq

/-- `PeerDescriptor`. -/
abbrev PeerDescriptor := Contact DhtAddress Location

/-- `binaryToBigInt`. -/
def binaryToBigInt (binary : List UInt8) : ℕ :=
  binary.foldl (fun accumulated byte ↦ accumulated * 256 + byte.toNat) 0

/-- `getRingIdFromRaw`. -/
def getRingIdFromRaw (raw : List UInt8) : ℚ := Binary64.round (binaryToBigInt raw)

/-- `writeUInt32BE`. -/
def writeUInt32BE (value : UInt32) : List UInt8 :=
  [(value >>> 24).toUInt8, (value >>> 16).toUInt8, (value >>> 8).toUInt8, value.toUInt8]

/-- `getRingIdRawFromPeerDescriptor`. -/
def getRingIdRawFromPeerDescriptor (peerDescriptor : PeerDescriptor) : List UInt8 :=
  writeUInt32BE (peerDescriptor.remote.region.getD 0) ++
    writeUInt32BE (peerDescriptor.remote.ipAddress.getD 0) ++
    peerDescriptor.nodeId.val.drop (peerDescriptor.nodeId.val.length - 7)

/-- `getRingIdFromPeerDescriptor`. -/
def getRingIdFromPeerDescriptor (peerDescriptor : PeerDescriptor) : ℚ :=
  getRingIdFromRaw (getRingIdRawFromPeerDescriptor peerDescriptor)

/-- `RING_SIZE`, which is rounded up. -/
def ringSize : ℚ := Binary64.round (2 ^ 120 - 1)

/-- `getLeftDistance`. -/
def getLeftDistance (referenceId id : ℚ) : ℚ :=
  let diff := |Binary64.round (referenceId - id)|
  if id < referenceId then diff else Binary64.round (ringSize - diff)

/-- `getRightDistance`. -/
def getRightDistance (referenceId id : ℚ) : ℚ :=
  let diff := |Binary64.round (referenceId - id)|
  if id < referenceId then Binary64.round (ringSize - diff) else diff

/-! ### Ordered maps -/

/-- The ordered maps of the package, with numbers as keys. Erasing a key removes its entry. -/
structure OrderedMapPackage (Value : Type) where
  OrderedMap : Type
  new : OrderedMap
  entries : OrderedMap → List (ℚ × Value)
  size : OrderedMap → ℕ
  back : OrderedMap → Option (ℚ × Value)
  getElementByKey : OrderedMap → ℚ → Option Value
  setElement : OrderedMap → ℚ → Value → OrderedMap
  eraseElementByKey : OrderedMap → ℚ → OrderedMap
  eraseLast : OrderedMap → OrderedMap
  mem_eraseElementByKey : ∀ map key entry,
    entry ∈ entries (eraseElementByKey map key) ↔ entry ∈ entries map ∧ entry.1 ≠ key

/-! ### The list -/

/-- `RingContactList`. -/
structure RingContactList (package : OrderedMapPackage PeerDescriptor) where
  referenceId : ℚ
  excludedIds : List DhtAddress
  leftNeighbors : package.OrderedMap
  rightNeighbors : package.OrderedMap

namespace RingContactList

variable {package : OrderedMapPackage PeerDescriptor}

/-- `numNeighborsPerSide`. -/
def numNeighborsPerSide : ℕ := 5

/-- The constructor. -/
def create (package : OrderedMapPackage PeerDescriptor) (rawReferenceId : List UInt8)
    (excludedIds : List DhtAddress) : RingContactList package :=
  ⟨getRingIdFromRaw rawReferenceId, excludedIds, package.new, package.new⟩

/-- The distance of a contact to the left. -/
def leftDistance (list : RingContactList package) (contact : PeerDescriptor) : ℚ :=
  getLeftDistance list.referenceId (getRingIdFromPeerDescriptor contact)

/-- The distance of a contact to the right. -/
def rightDistance (list : RingContactList package) (contact : PeerDescriptor) : ℚ :=
  getRightDistance list.referenceId (getRingIdFromPeerDescriptor contact)

/-- One side of `addContact`. -/
def addToSide (neighbors : package.OrderedMap) (distance : ℚ) (contact : PeerDescriptor) :
    package.OrderedMap :=
  if (package.back neighbors).all (distance < ·.1) then
    let added := package.setElement neighbors distance contact
    if numNeighborsPerSide < package.size added then package.eraseLast added else added
  else neighbors

/-- `addContact`. -/
def addContact (list : RingContactList package) (contact : PeerDescriptor) :
    RingContactList package :=
  if getRingIdFromPeerDescriptor contact = list.referenceId ∨
      contact.nodeId ∈ list.excludedIds then list
  else { list with
    leftNeighbors := addToSide list.leftNeighbors (list.leftDistance contact) contact
    rightNeighbors := addToSide list.rightNeighbors (list.rightDistance contact) contact }

/-- `removeContact`. -/
def removeContact (list : RingContactList package) (contact : Option PeerDescriptor) :
    RingContactList package :=
  match contact with
  | none => list
  | some contact => { list with
      leftNeighbors := package.eraseElementByKey list.leftNeighbors (list.leftDistance contact)
      rightNeighbors :=
        package.eraseElementByKey list.rightNeighbors (list.rightDistance contact) }

/-- `getContact`. -/
def getContact (list : RingContactList package) (peerDescriptor : PeerDescriptor) :
    Option PeerDescriptor :=
  (package.getElementByKey list.leftNeighbors (list.leftDistance peerDescriptor)).or
    (package.getElementByKey list.rightNeighbors (list.rightDistance peerDescriptor))

/-- The entries of a node on a side. -/
def entriesOf (neighbors : package.OrderedMap) (nodeId : DhtAddress) :
    List (ℚ × PeerDescriptor) :=
  (package.entries neighbors).filter (·.2.nodeId = nodeId)

/-- Whether a node is in the list, on either side. -/
def Contains (list : RingContactList package) (nodeId : DhtAddress) : Prop :=
  entriesOf list.leftNeighbors nodeId ≠ [] ∨ entriesOf list.rightNeighbors nodeId ≠ []

/-- All entries of a node are at given distances, those on the left at the first one and those on
the right at the second one. -/
def OnlyAt (list : RingContactList package) (nodeId : DhtAddress) (left right : ℚ) : Prop :=
  (∀ entry ∈ entriesOf list.leftNeighbors nodeId, entry.1 = left) ∧
    ∀ entry ∈ entriesOf list.rightNeighbors nodeId, entry.1 = right

theorem entriesOf_erase_ne_nil_iff {neighbors : package.OrderedMap} {distance : ℚ}
    {nodeId : DhtAddress} :
    entriesOf (package.eraseElementByKey neighbors distance) nodeId ≠ [] ↔
      ∃ entry ∈ entriesOf neighbors nodeId, entry.1 ≠ distance := by
  rw [ne_eq, List.eq_nil_iff_forall_not_mem, not_forall]
  simp only [entriesOf, List.mem_filter, package.mem_eraseElementByKey, not_not]
  exact exists_congr fun entry ↦ and_right_comm

/-- After `removeContact` of a contact, the nodes are left that have an entry somewhere else. -/
theorem contains_removeContact_iff {list : RingContactList package} {contact : PeerDescriptor}
    {nodeId : DhtAddress} :
    (list.removeContact (some contact)).Contains nodeId ↔
      ¬list.OnlyAt nodeId (list.leftDistance contact) (list.rightDistance contact) := by
  have hleft := @entriesOf_erase_ne_nil_iff package list.leftNeighbors
    (list.leftDistance contact) nodeId
  have hright := @entriesOf_erase_ne_nil_iff package list.rightNeighbors
    (list.rightDistance contact) nodeId
  simp only [Contains, removeContact, OnlyAt, hleft, hright, not_and_or, not_forall, exists_prop]

end RingContactList

end PomboStorageNode.Dht
