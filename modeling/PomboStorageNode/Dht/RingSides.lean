import Mathlib.Data.List.Induction
import PomboStorageNode.Dht.RingContactList
import PomboStorageNode.Library.LeastKeys

/-!
# The sides of a ring contact list

`RingContactList.ts` with ring ids and distances as exact integers, and with its events. Each side
is a map of a package, whose entries are in ascending order of distance: `SortedMapPackage` adds to
`OrderedMapPackage` what that means.

A side that is not full takes a contact only if it is closer than the furthest one that it has. So a
side never gets a contact that is further than the first one that came, and it ends with the closest
ones if enough of them are not further than the first (`sideOf_least_iff`). A contact that leaves
for another one that was added is not the one that `contactRemoved` names: the event names the
contact that was added (`namesRemoved_iff`).
-/

set_option autoImplicit false

namespace PomboStorageNode.Dht

open Library

/-- The ordered maps of the package in full: the entries are in ascending order of their keys, one
for each key. -/
structure SortedMapPackage (Value : Type) extends OrderedMapPackage Value where
  sorted_entries : ∀ map, (entries map).Pairwise (·.1 < ·.1)
  entries_new : entries new = []
  size_eq : ∀ map, size map = (entries map).length
  back_eq : ∀ map, back map = (entries map).getLast?
  getElementByKey_eq_some_iff : ∀ map key value,
    getElementByKey map key = some value ↔ (key, value) ∈ entries map
  mem_setElement : ∀ map key value entry,
    entry ∈ entries (setElement map key value) ↔
      entry = (key, value) ∨ entry ∈ entries map ∧ entry.1 ≠ key
  entries_eraseLast : ∀ map, entries (eraseLast map) = (entries map).dropLast

namespace ExactRing

/-- `getRingIdFromPeerDescriptor`, not rounded. -/
def getRingIdFromPeerDescriptor (peerDescriptor : PeerDescriptor) : ℚ :=
  binaryToBigInt (getRingIdRawFromPeerDescriptor peerDescriptor)

/-- `RING_SIZE`, not rounded. -/
def ringSize : ℚ := 2 ^ 120 - 1

/-- `getLeftDistance`, not rounded. -/
def getLeftDistance (referenceId id : ℚ) : ℚ :=
  let diff := |referenceId - id|
  if id < referenceId then diff else ringSize - diff

/-- `getRightDistance`, not rounded. -/
def getRightDistance (referenceId id : ℚ) : ℚ :=
  let diff := |referenceId - id|
  if id < referenceId then ringSize - diff else diff

/-- The distances to both sides make up the ring. -/
theorem getRightDistance_eq (referenceId id : ℚ) :
    getRightDistance referenceId id = ringSize - getLeftDistance referenceId id := by
  unfold getRightDistance getLeftDistance
  dsimp only
  split_ifs
  · rfl
  · exact (sub_sub_cancel _ _).symm

/-- A call to a list. -/
inductive RingCall
  | addContact (contact : PeerDescriptor)
  | removeContact (contact : Option PeerDescriptor)

variable {package : OrderedMapPackage PeerDescriptor}

/-- The constructor. -/
def create (package : OrderedMapPackage PeerDescriptor) (rawReferenceId : List UInt8)
    (excludedIds : List DhtAddress) : RingContactList package :=
  ⟨binaryToBigInt rawReferenceId, excludedIds, package.new, package.new⟩

/-- The distance of a contact to the left. -/
def leftDistance (referenceId : ℚ) (contact : PeerDescriptor) : ℚ :=
  getLeftDistance referenceId (getRingIdFromPeerDescriptor contact)

/-- The distance of a contact to the right. -/
def rightDistance (referenceId : ℚ) (contact : PeerDescriptor) : ℚ :=
  getRightDistance referenceId (getRingIdFromPeerDescriptor contact)

/-- Whether a side takes a contact. -/
def elementAdded (neighbors : package.OrderedMap) (distance : ℚ) : Bool :=
  (package.back neighbors).all (distance < ·.1)

/-- Whether a side gives up its furthest contact for another one. -/
def elementRemoved (neighbors : package.OrderedMap) (distance : ℚ) (contact : PeerDescriptor) :
    Bool :=
  elementAdded neighbors distance &&
    RingContactList.numNeighborsPerSide <
      package.size (package.setElement neighbors distance contact)

/-- Whether a list does not take a contact, being its own place on the ring, or excluded. -/
def refuses (referenceId : ℚ) (excludedIds : List DhtAddress) (contact : PeerDescriptor) : Bool :=
  getRingIdFromPeerDescriptor contact = referenceId ∨ contact.nodeId ∈ excludedIds

/-- `addContact`, with the events that listeners get. -/
def addContact (list : RingContactList package) (contact : PeerDescriptor) :
    RingContactList package × List (ContactEvent DhtAddress Location) :=
  if refuses list.referenceId list.excludedIds contact then (list, [])
  else
    let left := leftDistance list.referenceId contact
    let right := rightDistance list.referenceId contact
    ({ list with
        leftNeighbors := RingContactList.addToSide list.leftNeighbors left contact
        rightNeighbors := RingContactList.addToSide list.rightNeighbors right contact },
      (if elementAdded list.leftNeighbors left || elementAdded list.rightNeighbors right then
        [.contactAdded contact] else []) ++
      if elementRemoved list.leftNeighbors left contact ||
        elementRemoved list.rightNeighbors right contact then [.contactRemoved contact] else [])

/-- `removeContact`, with the events that listeners get. Erasing says whether the key was there. -/
def removeContact (list : RingContactList package) (contact : Option PeerDescriptor) :
    RingContactList package × List (ContactEvent DhtAddress Location) :=
  match contact with
  | none => (list, [])
  | some contact =>
    let left := leftDistance list.referenceId contact
    let right := rightDistance list.referenceId contact
    ({ list with
        leftNeighbors := package.eraseElementByKey list.leftNeighbors left
        rightNeighbors := package.eraseElementByKey list.rightNeighbors right },
      if (package.getElementByKey list.leftNeighbors left).isSome ||
        (package.getElementByKey list.rightNeighbors right).isSome then
        [.contactRemoved contact] else [])

/-- One call, with its events. -/
def perform (list : RingContactList package) :
    RingCall → RingContactList package × List (ContactEvent DhtAddress Location)
  | .addContact contact => addContact list contact
  | .removeContact contact => removeContact list contact

/-- The list after some calls. -/
def performAll (list : RingContactList package) (calls : List RingCall) :
    RingContactList package :=
  calls.foldl (fun list call ↦ (perform list call).1) list

/-- The contacts of a side, in the order of `getClosestContacts`. -/
def contactsOf (neighbors : package.OrderedMap) : List PeerDescriptor :=
  (package.entries neighbors).map Prod.snd

/-! ### One side -/

/-- A side after some contacts, each at a distance. -/
def sideOf (package : OrderedMapPackage PeerDescriptor) (distance : PeerDescriptor → ℚ)
    (contacts : List PeerDescriptor) : package.OrderedMap :=
  contacts.foldl (fun neighbors contact ↦
    RingContactList.addToSide neighbors (distance contact) contact) package.new

/-- The contacts that a list takes. -/
def taken (referenceId : ℚ) (excludedIds : List DhtAddress) (contacts : List PeerDescriptor) :
    List PeerDescriptor :=
  contacts.filter fun contact ↦ !refuses referenceId excludedIds contact

/-- Where each of the contacts that come is at some distance: if some are further than the first
one, then at least five are not further, and if two are at the same distance, then at least four are
closer. -/
def EnoughNear (distance : PeerDescriptor → ℚ) (contacts : List PeerDescriptor) : Prop :=
  (∀ first, contacts.head? = some first → ∀ other ∈ contacts, distance first < distance other →
    5 ≤ {contact ∈ contacts.toFinset | distance contact ≤ distance first}.card) ∧
  ∀ first ∈ contacts, ∀ second ∈ contacts, first ≠ second → distance first = distance second →
    4 ≤ {contact ∈ contacts.toFinset | distance contact < distance first}.card

section Sorted

variable {package : SortedMapPackage PeerDescriptor} {neighbors : package.OrderedMap}

/-- The keys of a side. -/
def keysOf (neighbors : package.OrderedMap) : List ℚ := (package.entries neighbors).map Prod.fst

theorem sorted_keysOf (neighbors : package.OrderedMap) : (keysOf neighbors).Pairwise (· < ·) :=
  List.pairwise_map.mpr (package.sorted_entries neighbors)

theorem nodup_keysOf (neighbors : package.OrderedMap) : (keysOf neighbors).Nodup :=
  (sorted_keysOf neighbors).imp ne_of_lt

/-- An entry is given by its key. -/
theorem entry_unique {first second : ℚ × PeerDescriptor}
    (hfirst : first ∈ package.entries neighbors) (hsecond : second ∈ package.entries neighbors)
    (hsame : first.1 = second.1) : first = second :=
  List.inj_on_of_nodup_map (nodup_keysOf neighbors) hfirst hsecond hsame

theorem mem_of_back {last : ℚ × PeerDescriptor} (hback : package.back neighbors = some last) :
    last ∈ package.entries neighbors := by
  rw [package.back_eq] at hback
  exact List.mem_of_getLast? hback

/-- The last entry has the greatest key. -/
theorem le_back {last entry : ℚ × PeerDescriptor} (hback : package.back neighbors = some last)
    (hmem : entry ∈ package.entries neighbors) : entry.1 ≤ last.1 := by
  rw [package.back_eq] at hback
  obtain ⟨before, hsplit⟩ := List.getLast?_eq_some_iff.mp hback
  have hsorted := package.sorted_entries neighbors
  rw [hsplit] at hmem hsorted
  rcases List.mem_append.mp hmem with hbefore | hlast
  · exact ((List.pairwise_append.mp hsorted).2.2 entry hbefore last List.mem_cons_self).le
  · exact (congrArg Prod.fst (List.mem_singleton.mp hlast)).le

theorem mem_keysOf_setElement {key other : ℚ} {contact : PeerDescriptor} :
    other ∈ keysOf (package.setElement neighbors key contact) ↔
      other = key ∨ other ∈ keysOf neighbors := by
  simp only [keysOf, List.mem_map, package.mem_setElement]
  constructor
  · rintro ⟨entry, rfl | ⟨hmem, -⟩, rfl⟩
    · exact Or.inl rfl
    · exact Or.inr ⟨entry, hmem, rfl⟩
  · rintro (rfl | ⟨entry, hmem, rfl⟩)
    · exact ⟨_, Or.inl rfl, rfl⟩
    · by_cases hkey : entry.1 = key
      · exact ⟨_, Or.inl rfl, hkey.symm⟩
      · exact ⟨entry, Or.inr ⟨hmem, hkey⟩, rfl⟩

/-- A side gets at most one key more. -/
theorem length_setElement_le (neighbors : package.OrderedMap) (key : ℚ)
    (contact : PeerDescriptor) :
    (package.entries (package.setElement neighbors key contact)).length ≤
      (package.entries neighbors).length + 1 := by
  have hsubset : keysOf (package.setElement neighbors key contact) ⊆ key :: keysOf neighbors :=
    fun other hmem ↦ List.mem_cons.mpr (mem_keysOf_setElement.mp hmem)
  have hlength := (nodup_keysOf _).length_le_of_subset hsubset
  rwa [List.length_cons, keysOf, keysOf, List.length_map, List.length_map] at hlength

/-- A side that takes a contact keeps the first five entries. -/
theorem entries_addToSide (hsize : (package.entries neighbors).length ≤ 5) (distance : ℚ)
    (contact : PeerDescriptor) :
    package.entries (RingContactList.addToSide neighbors distance contact) =
      if elementAdded neighbors distance then
        (package.entries (package.setElement neighbors distance contact)).take 5
      else package.entries neighbors := by
  have hlength := length_setElement_le neighbors distance contact
  unfold RingContactList.addToSide elementAdded
  dsimp only
  rw [package.size_eq]
  split_ifs with hadded hover
  · have hsix : (package.entries (package.setElement neighbors distance contact)).length = 6 :=
      Nat.le_antisymm (by omega) hover
    rw [package.entries_eraseLast, List.dropLast_eq_take, hsix]
  · exact (List.take_of_length_le (not_lt.mp hover)).symm
  · rfl

/-- A side that starts with a contact and has seen others: its keys are the least of those that are
not further than the first one, and the contacts are at their distances. -/
structure Side (distance : PeerDescriptor → ℚ) (first : PeerDescriptor)
    (seen : List PeerDescriptor) (neighbors : package.OrderedMap) : Prop where
  keys : Least id 5 (fun key ↦ key ≤ distance first ∧ ∃ contact ∈ seen, distance contact = key)
    (keysOf neighbors)
  entry : ∀ entry ∈ package.entries neighbors, entry.2 ∈ seen ∧ entry.1 = distance entry.2

namespace Side

variable {distance : PeerDescriptor → ℚ} {first : PeerDescriptor} {seen : List PeerDescriptor}

theorem length_le (hside : Side distance first seen neighbors) :
    (package.entries neighbors).length ≤ 5 := by
  have hlength := hside.keys.length_le
  rwa [keysOf, List.length_map] at hlength

/-- A side is not empty once a contact came. -/
theorem exists_back (hside : Side distance first seen neighbors) (hfirst : first ∈ seen) :
    ∃ last ∈ package.entries neighbors, package.back neighbors = some last := by
  cases hback : package.back neighbors with
  | some last => exact ⟨last, mem_of_back hback, rfl⟩
  | none =>
    rw [package.back_eq, List.getLast?_eq_none_iff] at hback
    have hempty : keysOf neighbors = [] := by rw [keysOf, hback, List.map_nil]
    have hfull := (hside.keys.left_out (distance first) ⟨le_rfl, first, hfirst, rfl⟩
      (hempty ▸ List.not_mem_nil)).1
    rw [hempty] at hfull
    cases hfull

/-- The keys after one more contact. -/
theorem keys_addToSide (hside : Side distance first seen neighbors) (hfirst : first ∈ seen)
    (contact : PeerDescriptor) :
    Least id 5 (fun key ↦ key ≤ distance first ∧
        ∃ other ∈ seen ++ [contact], distance other = key)
      (keysOf (RingContactList.addToSide neighbors (distance contact) contact)) := by
  have hpool (key : ℚ) : (key = distance contact ∧ key ≤ distance first) ∨
        (key ≤ distance first ∧ ∃ other ∈ seen, distance other = key) ↔
      key ≤ distance first ∧ ∃ other ∈ seen ++ [contact], distance other = key := by
    constructor
    · rintro (⟨rfl, hle⟩ | ⟨hle, other, hother, rfl⟩)
      · exact ⟨hle, contact, List.mem_append_right _ List.mem_cons_self, rfl⟩
      · exact ⟨hle, other, List.mem_append_left _ hother, rfl⟩
    · rintro ⟨hle, other, hother, rfl⟩
      rcases List.mem_append.mp hother with hseen | hnew
      · exact Or.inr ⟨hle, other, hseen, rfl⟩
      · exact Or.inl ⟨congrArg distance (List.mem_singleton.mp hnew), hle⟩
  obtain ⟨last, hlast, hback⟩ := hside.exists_back hfirst
  have hlastLe := (hside.keys.pool_of_mem last.1 (List.mem_map_of_mem hlast)).1
  rw [keysOf, entries_addToSide hside.length_le, elementAdded, hback, Option.all_some]
  by_cases hcloser : distance contact < last.1
  · rw [if_pos (decide_eq_true hcloser), List.map_take]
    have hresult : Least id 5 (· ∈ keysOf (package.setElement neighbors (distance contact) contact))
        ((keysOf (package.setElement neighbors (distance contact) contact)).take 5) :=
      Least.take (List.Perm.refl _) (nodup_keysOf _) ((sorted_keysOf _).imp le_of_lt)
    refine (hside.keys.of_least (hresult.congr fun key ↦ mem_keysOf_setElement)).congr fun key ↦ ?_
    rw [← hpool]
    refine or_congr_left (and_iff_left_of_imp ?_).symm
    rintro rfl
    exact hcloser.le.trans hlastLe
  · rw [if_neg (by simpa using hcloser)]
    rw [not_lt] at hcloser
    refine ⟨hside.keys.nodup, hside.keys.sorted, fun key hmem ↦ (hpool key).mp
      (Or.inr (hside.keys.pool_of_mem key hmem)), hside.keys.length_le, fun key hkey hnot ↦ ?_⟩
    rcases (hpool key).mpr hkey with ⟨rfl, hle⟩ | hold
    · -- a side that is not full still has the first contact, which is the last entry then
      have hbefore (other : ℚ) (hmem : other ∈ keysOf neighbors) : other ≤ distance contact := by
        obtain ⟨entry, hentry, rfl⟩ := List.mem_map.mp hmem
        exact (le_back hback hentry).trans hcloser
      refine ⟨?_, hbefore⟩
      by_cases hin : distance first ∈ keysOf neighbors
      · exact absurd (le_antisymm hle (hbefore _ hin) ▸ hin) hnot
      · exact (hside.keys.left_out _ ⟨le_rfl, first, hfirst, rfl⟩ hin).1
    · exact hside.keys.left_out key hold hnot

/-- A side takes one more contact, or not. -/
theorem addToSide (hside : Side distance first seen neighbors) (hfirst : first ∈ seen)
    (contact : PeerDescriptor) :
    Side distance first (seen ++ [contact])
      (RingContactList.addToSide neighbors (distance contact) contact) := by
  refine ⟨hside.keys_addToSide hfirst contact, fun entry hmem ↦ ?_⟩
  have hold {entry : ℚ × PeerDescriptor} (hmem : entry ∈ package.entries neighbors) :
      entry.2 ∈ seen ++ [contact] ∧ entry.1 = distance entry.2 :=
    ⟨List.mem_append_left _ (hside.entry entry hmem).1, (hside.entry entry hmem).2⟩
  rw [entries_addToSide hside.length_le] at hmem
  split_ifs at hmem
  · rcases (package.mem_setElement _ _ _ _).mp (List.mem_of_mem_take hmem) with rfl | ⟨hbefore, -⟩
    · exact ⟨List.mem_append_right _ List.mem_cons_self, rfl⟩
    · exact hold hbefore
  · exact hold hmem

end Side

/-- The first contact of a side. -/
theorem entries_addToSide_new (distance : ℚ) (contact : PeerDescriptor) :
    package.entries (RingContactList.addToSide package.new distance contact) =
      [(distance, contact)] := by
  have hnone : package.back package.new = none := by
    rw [package.back_eq, package.entries_new, List.getLast?_nil]
  have hlength : (package.entries package.new).length ≤ 5 := by
    rw [package.entries_new]
    exact Nat.zero_le 5
  have hset := length_setElement_le package.new distance contact
  rw [package.entries_new, List.length_nil] at hset
  rw [entries_addToSide hlength, elementAdded, hnone, Option.all_none, if_pos rfl,
    List.take_of_length_le (by omega)]
  refine List.perm_singleton.mp ((List.perm_ext_iff_of_nodup ?_ (List.nodup_singleton _)).mpr
    fun entry ↦ ?_)
  · exact (nodup_keysOf _).of_map Prod.fst
  · rw [package.mem_setElement, package.entries_new, List.mem_singleton]
    exact or_iff_left fun hmem ↦ List.not_mem_nil hmem.1

/-- A side after some contacts. -/
theorem side_sideOf (distance : PeerDescriptor → ℚ) (first : PeerDescriptor)
    (contacts : List PeerDescriptor) :
    Side distance first (first :: contacts)
      (sideOf package.toOrderedMapPackage distance (first :: contacts)) := by
  induction contacts using List.reverseRecOn with
  | nil =>
    have hentries := @entries_addToSide_new package (distance first) first
    refine ⟨?_, fun entry hmem ↦ ?_⟩
    · show Least id 5 _ (keysOf (RingContactList.addToSide package.new (distance first) first))
      rw [keysOf, hentries]
      refine ⟨List.nodup_singleton _, List.pairwise_singleton _ _, fun key hmem ↦ ?_,
        Nat.succ_le_succ (Nat.zero_le 4), fun key hkey hnot ↦ ?_⟩
      · rw [List.mem_singleton.mp hmem]
        exact ⟨le_rfl, first, List.mem_cons_self, rfl⟩
      · obtain ⟨-, contact, hcontact, rfl⟩ := hkey
        rw [List.mem_singleton.mp hcontact] at hnot
        exact absurd List.mem_cons_self hnot
    · have hentry : entry ∈ [(distance first, first)] := hentries ▸ hmem
      rw [List.mem_singleton.mp hentry]
      exact ⟨List.mem_cons_self, rfl⟩
  | append_singleton contacts contact ih =>
    have hstep := ih.addToSide List.mem_cons_self contact
    rw [List.cons_append] at hstep
    rw [← List.cons_append, sideOf, List.foldl_append]
    exact hstep

/-- A side has the closest contacts if and only if enough of those that came are near. -/
theorem sideOf_least_iff (distance : PeerDescriptor → ℚ) (contacts : List PeerDescriptor) :
    Least distance 5 (· ∈ contacts)
        (contactsOf (sideOf package.toOrderedMapPackage distance contacts)) ↔
      EnoughNear distance contacts := by
  cases contacts with
  | nil =>
    have hempty : contactsOf (sideOf package.toOrderedMapPackage distance []) = [] := by
      show (package.entries package.new).map Prod.snd = []
      rw [package.entries_new, List.map_nil]
    rw [hempty]
    refine iff_of_true (Least.nil fun _ ↦ List.not_mem_nil) ⟨nofun, nofun⟩
  | cons first contacts =>
    have hside := @side_sideOf package distance first contacts
    have hkeys : (contactsOf (sideOf package.toOrderedMapPackage distance
        (first :: contacts))).map distance =
        keysOf (sideOf package.toOrderedMapPackage distance (first :: contacts)) := by
      rw [contactsOf, keysOf, List.map_map]
      exact List.map_congr_left fun entry hmem ↦ (hside.entry entry hmem).2.symm
    have hmem (contact : PeerDescriptor) : contact ∈ (first :: contacts).toFinset ↔
      contact ∈ first :: contacts := List.mem_toFinset
    have hiff := @Least.of_keys_iff _ _ _ distance 5
      (contactsOf (sideOf package.toOrderedMapPackage distance (first :: contacts)))
      (first :: contacts).toFinset first (fun contact hcontact ↦ ?_) ?_
    · have hsucc (count : ℕ) : 5 ≤ count + 1 ↔ 4 ≤ count := Nat.succ_le_succ_iff
      simp only [hmem, hsucc] at hiff
      rw [hiff, EnoughNear]
      simp only [List.head?_cons, Option.some.injEq, forall_eq']
    · obtain ⟨entry, hentry, rfl⟩ := List.mem_map.mp hcontact
      exact (hmem _).mpr (hside.entry entry hentry).1
    · rw [hkeys]
      simp only [hmem]
      exact hside.keys

theorem addContact_of_refuses {list : RingContactList package.toOrderedMapPackage}
    {contact : PeerDescriptor}
    (hrefuses : refuses list.referenceId list.excludedIds contact = true) :
    addContact list contact = (list, []) :=
  if_pos hrefuses

/-- The list after taking a contact. -/
theorem addContact_of_takes {list : RingContactList package.toOrderedMapPackage}
    {contact : PeerDescriptor}
    (htakes : refuses list.referenceId list.excludedIds contact = false) :
    (addContact list contact).1 = { list with
      leftNeighbors := RingContactList.addToSide list.leftNeighbors
        (leftDistance list.referenceId contact) contact
      rightNeighbors := RingContactList.addToSide list.rightNeighbors
        (rightDistance list.referenceId contact) contact } := by
  rw [addContact, if_neg (by rw [htakes]; exact Bool.false_ne_true)]

/-- The sides of a list to which contacts were added. -/
theorem performAll_addContact (list : RingContactList package.toOrderedMapPackage)
    (contacts : List PeerDescriptor) :
    performAll list (contacts.map .addContact) = { list with
      leftNeighbors := (taken list.referenceId list.excludedIds contacts).foldl
        (fun neighbors contact ↦ RingContactList.addToSide neighbors
          (leftDistance list.referenceId contact) contact) list.leftNeighbors
      rightNeighbors := (taken list.referenceId list.excludedIds contacts).foldl
        (fun neighbors contact ↦ RingContactList.addToSide neighbors
          (rightDistance list.referenceId contact) contact) list.rightNeighbors } := by
  induction contacts generalizing list with
  | nil => rfl
  | cons contact contacts ih =>
    have hcons : performAll list ((contact :: contacts).map .addContact) =
        performAll (addContact list contact).1 (contacts.map .addContact) := rfl
    rw [hcons]
    cases hrefuses : refuses list.referenceId list.excludedIds contact with
    | true =>
      have htaken : taken list.referenceId list.excludedIds (contact :: contacts) =
          taken list.referenceId list.excludedIds contacts :=
        List.filter_cons_of_neg (by simp [hrefuses])
      rw [addContact_of_refuses hrefuses, ih, htaken]
    | false =>
      have htaken : taken list.referenceId list.excludedIds (contact :: contacts) =
          contact :: taken list.referenceId list.excludedIds contacts :=
        List.filter_cons_of_pos (by simp [hrefuses])
      rw [addContact_of_takes hrefuses, ih, htaken]
      rfl

/-! ### Events -/

/-- Whether a contact is on one of the sides. -/
def OnSide (list : RingContactList package.toOrderedMapPackage) (contact : PeerDescriptor) : Prop :=
  contact ∈ contactsOf list.leftNeighbors ∨ contact ∈ contactsOf list.rightNeighbors

/-- A call names the contacts that leave: each `contactRemoved` event names a contact that is on
neither side afterwards, and each contact that leaves both sides is named by one. -/
def NamesRemoved (list : RingContactList package.toOrderedMapPackage) (call : RingCall) : Prop :=
  (∀ contact, ContactEvent.contactRemoved contact ∈ (perform list call).2 →
    ¬OnSide (perform list call).1 contact) ∧
  ∀ contact, OnSide list contact → ¬OnSide (perform list call).1 contact →
    ContactEvent.contactRemoved contact ∈ (perform list call).2

/-- A side gives up its furthest contact: it is full, and a contact comes that is closer than that
one, at a new distance. -/
def Overflows (neighbors : package.OrderedMap) (distance : ℚ) : Prop :=
  RingContactList.numNeighborsPerSide ≤ package.size neighbors ∧
    elementAdded neighbors distance = true ∧ package.getElementByKey neighbors distance = none

/-- A contact is the furthest one on a side. -/
def IsFurthest (neighbors : package.OrderedMap) (contact : PeerDescriptor) : Prop :=
  (package.back neighbors).map Prod.snd = some contact

/-- A call that does not make a contact leave for another one: it is refused, or no side overflows
and another contact at the same distance is the furthest on a side, or it removes a contact with the
distance of no other one. -/
def KeepsOthers (list : RingContactList package.toOrderedMapPackage) : RingCall → Prop
  | .addContact contact =>
    refuses list.referenceId list.excludedIds contact = true ∨
      (¬Overflows list.leftNeighbors (leftDistance list.referenceId contact) ∧
        ¬Overflows list.rightNeighbors (rightDistance list.referenceId contact) ∧
        ∀ other, OnSide list other → other ≠ contact →
          leftDistance list.referenceId other = leftDistance list.referenceId contact →
          IsFurthest list.leftNeighbors other ∨ IsFurthest list.rightNeighbors other)
  | .removeContact none => True
  | .removeContact (some contact) => ∀ other, OnSide list other →
      leftDistance list.referenceId other = leftDistance list.referenceId contact →
      other = contact

/-- The entries of both sides are at their distances, and there are not too many. -/
structure Placed (list : RingContactList package.toOrderedMapPackage) : Prop where
  left : ∀ entry ∈ package.entries list.leftNeighbors,
    entry.1 = leftDistance list.referenceId entry.2
  right : ∀ entry ∈ package.entries list.rightNeighbors,
    entry.1 = rightDistance list.referenceId entry.2
  left_length_le : (package.entries list.leftNeighbors).length ≤ 5
  right_length_le : (package.entries list.rightNeighbors).length ≤ 5

theorem getElementByKey_eq_none_iff {key : ℚ} :
    package.getElementByKey neighbors key = none ↔ key ∉ keysOf neighbors := by
  rw [Option.eq_none_iff_forall_ne_some, keysOf, List.mem_map]
  simp only [ne_eq, package.getElementByKey_eq_some_iff, not_exists, not_and]
  constructor
  · rintro hnone entry hmem rfl
    exact hnone entry.2 hmem
  · exact fun hnone contact hmem ↦ hnone _ hmem rfl

/-- A side gives up a contact only when it overflows. -/
theorem elementRemoved_eq_true_iff (hsize : (package.entries neighbors).length ≤ 5) {distance : ℚ}
    (contact : PeerDescriptor) :
    elementRemoved neighbors distance contact = true ↔ Overflows neighbors distance := by
  have hlength : (package.entries (package.setElement neighbors distance contact)).length =
      (keysOf (package.setElement neighbors distance contact)).length := by
    rw [keysOf, List.length_map]
  have hkeys : (package.entries neighbors).length = (keysOf neighbors).length := by
    rw [keysOf, List.length_map]
  rw [elementRemoved, Bool.and_eq_true, decide_eq_true_eq, Overflows, getElementByKey_eq_none_iff,
    package.size_eq, package.size_eq, RingContactList.numNeighborsPerSide]
  by_cases hmem : distance ∈ keysOf neighbors
  · have hsubset : keysOf (package.setElement neighbors distance contact) ⊆ keysOf neighbors :=
      fun other hother ↦ (mem_keysOf_setElement.mp hother).elim (fun heq ↦ heq ▸ hmem) id
    have hle := (nodup_keysOf _).length_le_of_subset hsubset
    constructor
    · rintro ⟨-, hover⟩
      omega
    · exact fun hover ↦ absurd hmem hover.2.2
  · have hperm : (keysOf (package.setElement neighbors distance contact)).Perm
        (distance :: keysOf neighbors) :=
      (List.perm_ext_iff_of_nodup (nodup_keysOf _)
        (List.nodup_cons.mpr ⟨hmem, nodup_keysOf _⟩)).mpr fun other ↦ by
          rw [mem_keysOf_setElement, List.mem_cons]
    have hmore := hperm.length_eq
    rw [List.length_cons] at hmore
    constructor
    · rintro ⟨hadded, hover⟩
      exact ⟨by omega, hadded, hmem⟩
    · rintro ⟨hfull, hadded, -⟩
      exact ⟨hadded, by omega⟩

/-- An entry of a side after a contact came. -/
theorem mem_addToSide (hsize : (package.entries neighbors).length ≤ 5) {distance : ℚ}
    {contact : PeerDescriptor} {entry : ℚ × PeerDescriptor}
    (hmem : entry ∈ package.entries (RingContactList.addToSide neighbors distance contact)) :
    entry = (distance, contact) ∨
      entry ∈ package.entries neighbors ∧ (elementAdded neighbors distance = true →
        entry.1 ≠ distance) := by
  rw [entries_addToSide hsize] at hmem
  split_ifs at hmem with hadded
  · rcases (package.mem_setElement _ _ _ _).mp (List.mem_of_mem_take hmem) with hnew | ⟨hold, hne⟩
    · exact Or.inl hnew
    · exact Or.inr ⟨hold, fun _ ↦ hne⟩
  · exact Or.inr ⟨hmem, fun hadd ↦ absurd hadd hadded⟩

/-- The entries of a side that does not overflow. -/
theorem mem_addToSide_iff (hsize : (package.entries neighbors).length ≤ 5) {distance : ℚ}
    (hover : ¬Overflows neighbors distance) (hadded : elementAdded neighbors distance = true)
    {contact : PeerDescriptor} {entry : ℚ × PeerDescriptor} :
    entry ∈ package.entries (RingContactList.addToSide neighbors distance contact) ↔
      entry = (distance, contact) ∨ entry ∈ package.entries neighbors ∧ entry.1 ≠ distance := by
  have hremoved : ¬elementRemoved neighbors distance contact = true :=
    (elementRemoved_eq_true_iff hsize contact).not.mpr hover
  rw [elementRemoved, hadded, Bool.true_and, decide_eq_true_eq, package.size_eq] at hremoved
  have hfew : (package.entries (package.setElement neighbors distance contact)).length ≤ 5 :=
    not_lt.mp hremoved
  rw [entries_addToSide hsize, if_pos hadded, List.take_of_length_le hfew, package.mem_setElement]

/-- The contact for which a side gives up another one is on that side. -/
theorem mem_addToSide_of_overflows (hsize : (package.entries neighbors).length ≤ 5) {distance : ℚ}
    (hover : Overflows neighbors distance) (contact : PeerDescriptor) :
    (distance, contact) ∈
      package.entries (RingContactList.addToSide neighbors distance contact) := by
  obtain ⟨hfull, hadded, -⟩ := hover
  rw [entries_addToSide hsize, if_pos hadded]
  have hlength := length_setElement_le neighbors distance contact
  have hsorted := package.sorted_entries (package.setElement neighbors distance contact)
  have hnew : (distance, contact) ∈
      package.entries (package.setElement neighbors distance contact) :=
    (package.mem_setElement _ _ _ _).mpr (Or.inl rfl)
  -- the furthest contact is still there, and it is further
  obtain ⟨last, hback⟩ : ∃ last, package.back neighbors = some last := by
    refine Option.ne_none_iff_exists'.mp fun hnone ↦ ?_
    rw [package.back_eq, List.getLast?_eq_none_iff] at hnone
    rw [package.size_eq, hnone] at hfull
    cases hfull
  have hcloser : distance < last.1 := by
    rwa [elementAdded, hback, Option.all_some, decide_eq_true_eq] at hadded
  have hlast : last ∈ package.entries (package.setElement neighbors distance contact) :=
    (package.mem_setElement _ _ _ _).mpr (Or.inr ⟨mem_of_back hback, hcloser.ne'⟩)
  rw [← List.take_append_drop 5 (package.entries (package.setElement neighbors distance contact))]
    at hsorted hnew hlast
  refine (List.mem_append.mp hnew).resolve_right fun hdropped ↦ ?_
  rcases List.mem_append.mp hlast with hkept | hlast
  · exact ((List.pairwise_append.mp hsorted).2.2 last hkept _ hdropped).not_gt hcloser
  · have hne : (distance, contact) ≠ last := fun hsame ↦ hcloser.ne (congrArg Prod.fst hsame)
    have hpair := (List.nodup_cons.mpr ⟨List.mem_singleton.not.mpr hne,
      List.nodup_singleton last⟩).length_le_of_subset
        (List.cons_subset.mpr ⟨hdropped, fun _ hmem ↦ List.mem_singleton.mp hmem ▸ hlast⟩)
    rw [List.length_drop] at hpair
    exact absurd hpair (by rw [List.length_cons, List.length_singleton]; omega)

/-! ### What a call does -/

variable {list : RingContactList package.toOrderedMapPackage}

theorem mem_contactsOf {contact : PeerDescriptor} :
    contact ∈ contactsOf neighbors ↔
      ∃ distance, (distance, contact) ∈ package.entries neighbors := by
  rw [contactsOf, List.mem_map]
  constructor
  · rintro ⟨entry, hmem, rfl⟩
    exact ⟨entry.1, hmem⟩
  · rintro ⟨distance, hmem⟩
    exact ⟨_, hmem, rfl⟩

/-- The contacts of a list are at their distances on a side. -/
theorem Placed.onSide_iff (hplaced : Placed list) {contact : PeerDescriptor} :
    OnSide list contact ↔
      (leftDistance list.referenceId contact, contact) ∈ package.entries list.leftNeighbors ∨
        (rightDistance list.referenceId contact, contact) ∈
          package.entries list.rightNeighbors := by
  rw [OnSide, mem_contactsOf, mem_contactsOf]
  constructor
  · rintro (⟨distance, hmem⟩ | ⟨distance, hmem⟩)
    · exact Or.inl ((hplaced.left _ hmem : distance = _) ▸ hmem)
    · exact Or.inr ((hplaced.right _ hmem : distance = _) ▸ hmem)
  · exact Or.imp (fun hmem ↦ ⟨_, hmem⟩) fun hmem ↦ ⟨_, hmem⟩

/-- Contacts at the same distance to one side are at the same distance to the other. -/
theorem rightDistance_eq_iff {referenceId : ℚ} {first second : PeerDescriptor} :
    rightDistance referenceId first = rightDistance referenceId second ↔
      leftDistance referenceId first = leftDistance referenceId second := by
  rw [rightDistance, rightDistance, getRightDistance_eq, getRightDistance_eq, sub_right_inj]
  rfl

theorem length_addToSide_le (hsize : (package.entries neighbors).length ≤ 5) (distance : ℚ)
    (contact : PeerDescriptor) :
    (package.entries (RingContactList.addToSide neighbors distance contact)).length ≤ 5 := by
  rw [entries_addToSide hsize]
  split_ifs
  · exact List.length_take_le _ _
  · exact hsize

theorem length_eraseElementByKey_le (neighbors : package.OrderedMap) (key : ℚ) :
    (package.entries (package.eraseElementByKey neighbors key)).length ≤
      (package.entries neighbors).length :=
  ((nodup_keysOf _).of_map Prod.fst).length_le_of_subset fun entry hmem ↦
    ((package.mem_eraseElementByKey neighbors key entry).mp hmem).1

/-- Every call leaves the entries at their distances. -/
theorem Placed.perform (hplaced : Placed list) (call : RingCall) :
    Placed (ExactRing.perform list call).1 := by
  cases call with
  | addContact contact =>
    show Placed (addContact list contact).1
    cases hrefuses : refuses list.referenceId list.excludedIds contact with
    | true => rwa [addContact_of_refuses hrefuses]
    | false =>
      rw [addContact_of_takes hrefuses]
      refine ⟨fun entry hmem ↦ ?_, fun entry hmem ↦ ?_, ?_, ?_⟩
      · rcases mem_addToSide hplaced.left_length_le hmem with rfl | ⟨hold, -⟩
        · rfl
        · exact hplaced.left entry hold
      · rcases mem_addToSide hplaced.right_length_le hmem with rfl | ⟨hold, -⟩
        · rfl
        · exact hplaced.right entry hold
      · exact length_addToSide_le hplaced.left_length_le _ contact
      · exact length_addToSide_le hplaced.right_length_le _ contact
  | removeContact contact =>
    cases contact with
    | none => exact hplaced
    | some contact =>
      refine ⟨fun entry hmem ↦ ?_, fun entry hmem ↦ ?_, ?_, ?_⟩
      · exact hplaced.left entry ((package.mem_eraseElementByKey _ _ _).mp hmem).1
      · exact hplaced.right entry ((package.mem_eraseElementByKey _ _ _).mp hmem).1
      · exact (length_eraseElementByKey_le _ _).trans hplaced.left_length_le
      · exact (length_eraseElementByKey_le _ _).trans hplaced.right_length_le

theorem referenceId_perform (list : RingContactList package.toOrderedMapPackage)
    (call : RingCall) : (perform list call).1.referenceId = list.referenceId := by
  cases call with
  | addContact contact =>
    show (addContact list contact).1.referenceId = _
    unfold addContact
    split_ifs
    · rfl
    · rfl
  | removeContact contact =>
    cases contact with
    | none => rfl
    | some contact => rfl

/-- Removing a contact: those at its distance leave. -/
theorem onSide_removeContact (hplaced : Placed list) {contact other : PeerDescriptor} :
    OnSide (perform list (.removeContact (some contact))).1 other ↔ OnSide list other ∧
      leftDistance list.referenceId other ≠ leftDistance list.referenceId contact := by
  rw [(hplaced.perform (.removeContact (some contact))).onSide_iff, referenceId_perform,
    hplaced.onSide_iff, or_and_right]
  refine or_congr (package.mem_eraseElementByKey _ _ _)
    ((package.mem_eraseElementByKey _ _ _).trans (and_congr_right fun _ ↦ ?_))
  exact rightDistance_eq_iff.not

/-- Removing a contact names it, if there is one at its distance. -/
theorem contactRemoved_mem_removeContact (hplaced : Placed list)
    {contact named : PeerDescriptor} :
    ContactEvent.contactRemoved named ∈ (perform list (.removeContact (some contact))).2 ↔
      named = contact ∧ ∃ other, OnSide list other ∧
        leftDistance list.referenceId other = leftDistance list.referenceId contact := by
  have hsome : ((package.getElementByKey list.leftNeighbors
        (leftDistance list.referenceId contact)).isSome ||
      (package.getElementByKey list.rightNeighbors
        (rightDistance list.referenceId contact)).isSome) = true ↔
      ∃ other, OnSide list other ∧
        leftDistance list.referenceId other = leftDistance list.referenceId contact := by
    simp only [Bool.or_eq_true, Option.isSome_iff_exists, package.getElementByKey_eq_some_iff,
      hplaced.onSide_iff]
    constructor
    · rintro (⟨other, hmem⟩ | ⟨other, hmem⟩)
      · have hsame : leftDistance list.referenceId contact = leftDistance list.referenceId other :=
          hplaced.left _ hmem
        exact ⟨other, Or.inl (hsame ▸ hmem), hsame.symm⟩
      · have hsame : rightDistance list.referenceId contact =
            rightDistance list.referenceId other := hplaced.right _ hmem
        exact ⟨other, Or.inr (hsame ▸ hmem), rightDistance_eq_iff.mp hsame.symm⟩
    · rintro ⟨other, hmem | hmem, hsame⟩
      · exact Or.inl ⟨other, hsame ▸ hmem⟩
      · exact Or.inr ⟨other, rightDistance_eq_iff.mpr hsame ▸ hmem⟩
  rw [← hsome]
  show ContactEvent.contactRemoved named ∈ (if _ then _ else _) ↔ _
  split_ifs with hthere
  · simp [hthere]
  · simp [hthere]

theorem namesRemoved_removeContact (hplaced : Placed list) (contact : PeerDescriptor) :
    NamesRemoved list (.removeContact (some contact)) ↔
      KeepsOthers list (.removeContact (some contact)) := by
  simp only [NamesRemoved, KeepsOthers, onSide_removeContact hplaced,
    contactRemoved_mem_removeContact hplaced]
  constructor
  · rintro ⟨-, hnamed⟩ other hother hsame
    exact (hnamed other hother fun hstays ↦ hstays.2 hsame).1
  · intro hothers
    refine ⟨fun named hevent hstays ↦ hstays.2 (congrArg _ hevent.1), fun other hother hleaves ↦ ?_⟩
    have hsame : leftDistance list.referenceId other = leftDistance list.referenceId contact := by
      by_contra hne
      exact hleaves ⟨hother, hne⟩
    exact ⟨hothers other hother hsame, other, hother, hsame⟩

/-- Adding a contact names it as removed when a side overflows. -/
theorem contactRemoved_mem_addContact (hplaced : Placed list) {contact named : PeerDescriptor}
    (htakes : refuses list.referenceId list.excludedIds contact = false) :
    ContactEvent.contactRemoved named ∈ (perform list (.addContact contact)).2 ↔
      named = contact ∧ (Overflows list.leftNeighbors (leftDistance list.referenceId contact) ∨
        Overflows list.rightNeighbors (rightDistance list.referenceId contact)) := by
  rw [← elementRemoved_eq_true_iff hplaced.left_length_le contact,
    ← elementRemoved_eq_true_iff hplaced.right_length_le contact, ← Bool.or_eq_true]
  show _ ∈ (addContact list contact).2 ↔ _
  rw [addContact, htakes, if_neg Bool.false_ne_true, List.mem_append]
  rw [or_iff_right fun hmem ↦ by split_ifs at hmem <;> simp at hmem]
  split_ifs with hremoved
  · simp [hremoved]
  · simp [hremoved]

/-- On a side that does not overflow a contact stays unless another one at its distance is taken. -/
theorem mem_addToSide_other_iff (hsize : (package.entries neighbors).length ≤ 5)
    {distance : PeerDescriptor → ℚ} {contact other : PeerDescriptor}
    (hplaced : ∀ entry ∈ package.entries neighbors, entry.1 = distance entry.2)
    (hover : ¬Overflows neighbors (distance contact)) (hne : other ≠ contact) :
    (distance other, other) ∈
        package.entries (RingContactList.addToSide neighbors (distance contact) contact) ↔
      (distance other, other) ∈ package.entries neighbors ∧
        (distance other = distance contact → IsFurthest neighbors other) := by
  have hnew : (distance other, other) ≠ (distance contact, contact) := fun hsame ↦
    hne (congrArg Prod.snd hsame)
  cases hadded : elementAdded neighbors (distance contact) with
  | true =>
    rw [mem_addToSide_iff hsize hover hadded, or_iff_right hnew]
    refine and_congr_right fun hmem ↦ ⟨fun hdistance hsame ↦ absurd hsame hdistance,
      fun hfurthest hsame ↦ ?_⟩
    obtain ⟨last, hback, hlast⟩ := Option.map_eq_some_iff.mp (hfurthest hsame)
    rw [elementAdded, hback, Option.all_some, decide_eq_true_eq,
      hplaced last (mem_of_back hback), hlast] at hadded
    exact hadded.ne' hsame
  | false =>
    rw [entries_addToSide hsize, hadded, if_neg Bool.false_ne_true]
    refine (and_iff_left_of_imp fun hmem hsame ↦ ?_).symm
    cases hback : package.back neighbors with
    | none =>
      rw [elementAdded, hback] at hadded
      cases hadded
    | some last =>
      rw [elementAdded, hback, Option.all_some, decide_eq_false_iff_not, not_lt] at hadded
      have hkey := le_antisymm (le_back hback hmem) (hadded.trans hsame.ge)
      rw [IsFurthest, hback, ← entry_unique hmem (mem_of_back hback) hkey]
      rfl

/-- A contact that comes again stays. -/
theorem mem_addToSide_self (hsize : (package.entries neighbors).length ≤ 5) {distance : ℚ}
    {contact : PeerDescriptor} (hover : ¬Overflows neighbors distance)
    (hmem : (distance, contact) ∈ package.entries neighbors) :
    (distance, contact) ∈
      package.entries (RingContactList.addToSide neighbors distance contact) := by
  cases hadded : elementAdded neighbors distance with
  | true => exact (mem_addToSide_iff hsize hover hadded).mpr (Or.inl rfl)
  | false => rwa [entries_addToSide hsize, hadded, if_neg Bool.false_ne_true]

theorem mem_of_isFurthest {distance : PeerDescriptor → ℚ} {contact : PeerDescriptor}
    (hplaced : ∀ entry ∈ package.entries neighbors, entry.1 = distance entry.2)
    (hfurthest : IsFurthest neighbors contact) :
    (distance contact, contact) ∈ package.entries neighbors := by
  obtain ⟨last, hback, rfl⟩ := Option.map_eq_some_iff.mp hfurthest
  have hmem := mem_of_back hback
  exact hplaced last hmem ▸ hmem

/-- Adding a contact when no side overflows: another one stays unless it is at the same distance and
the furthest on neither side. -/
theorem onSide_addContact (hplaced : Placed list) {contact other : PeerDescriptor}
    (htakes : refuses list.referenceId list.excludedIds contact = false)
    (hleft : ¬Overflows list.leftNeighbors (leftDistance list.referenceId contact))
    (hright : ¬Overflows list.rightNeighbors (rightDistance list.referenceId contact))
    (hne : other ≠ contact) :
    OnSide (perform list (.addContact contact)).1 other ↔ OnSide list other ∧
      (leftDistance list.referenceId other = leftDistance list.referenceId contact →
        IsFurthest list.leftNeighbors other ∨ IsFurthest list.rightNeighbors other) := by
  have hafter := hplaced.perform (.addContact contact)
  have hadd : (perform list (.addContact contact)).1 = _ := addContact_of_takes htakes
  rw [hafter.onSide_iff, referenceId_perform, hadd]
  rw [mem_addToSide_other_iff hplaced.left_length_le hplaced.left hleft hne,
    mem_addToSide_other_iff hplaced.right_length_le hplaced.right hright hne, rightDistance_eq_iff,
    hplaced.onSide_iff]
  by_cases hsame : leftDistance list.referenceId other = leftDistance list.referenceId contact
  · simp only [hsame, forall_const]
    constructor
    · rintro (⟨hmem, hfurthest⟩ | ⟨hmem, hfurthest⟩)
      · exact ⟨Or.inl hmem, Or.inl hfurthest⟩
      · exact ⟨Or.inr hmem, Or.inr hfurthest⟩
    · rintro ⟨-, hfurthest | hfurthest⟩
      · have hmem := mem_of_isFurthest hplaced.left hfurthest
        exact Or.inl ⟨hsame ▸ hmem, hfurthest⟩
      · exact Or.inr ⟨mem_of_isFurthest hplaced.right hfurthest, hfurthest⟩
  · simp [hsame]

theorem namesRemoved_addContact (hplaced : Placed list) (contact : PeerDescriptor) :
    NamesRemoved list (.addContact contact) ↔ KeepsOthers list (.addContact contact) := by
  cases hrefuses : refuses list.referenceId list.excludedIds contact with
  | true =>
    have hsame : perform list (.addContact contact) = (list, []) := addContact_of_refuses hrefuses
    refine iff_of_true ?_ (Or.inl hrefuses)
    rw [NamesRemoved, hsame]
    exact ⟨fun _ hevent ↦ absurd hevent List.not_mem_nil, fun _ hon hnot ↦ absurd hon hnot⟩
  | false =>
    have hevents {named : PeerDescriptor} :=
      @contactRemoved_mem_addContact package list hplaced contact named hrefuses
    have hadd : (perform list (.addContact contact)).1 = _ := addContact_of_takes hrefuses
    have hafter := hplaced.perform (.addContact contact)
    constructor
    · rintro ⟨hgone, hnamed⟩
      have hleft : ¬Overflows list.leftNeighbors (leftDistance list.referenceId contact) := by
        intro hover
        refine hgone contact (hevents.mpr ⟨rfl, Or.inl hover⟩) (hafter.onSide_iff.mpr ?_)
        rw [referenceId_perform, hadd]
        exact Or.inl (mem_addToSide_of_overflows hplaced.left_length_le hover contact)
      have hright : ¬Overflows list.rightNeighbors (rightDistance list.referenceId contact) := by
        intro hover
        refine hgone contact (hevents.mpr ⟨rfl, Or.inr hover⟩) (hafter.onSide_iff.mpr ?_)
        rw [referenceId_perform, hadd]
        exact Or.inr (mem_addToSide_of_overflows hplaced.right_length_le hover contact)
      refine Or.inr ⟨hleft, hright, fun other hother hne hsame ↦ ?_⟩
      by_contra hnot
      refine hne (hevents.mp (hnamed other hother fun hstays ↦ hnot ?_)).1
      exact ((onSide_addContact hplaced hrefuses hleft hright hne).mp hstays).2 hsame
    · intro hkeeps
      obtain ⟨hleft, hright, hothers⟩ := hkeeps.resolve_left (by simp [hrefuses])
      refine ⟨fun named hevent ↦ absurd (hevents.mp hevent).2 (not_or.mpr ⟨hleft, hright⟩),
        fun other hother hleaves ↦ absurd ?_ hleaves⟩
      by_cases hsame : other = contact
      · subst hsame
        rw [hafter.onSide_iff, referenceId_perform, hadd]
        exact (hplaced.onSide_iff.mp hother).imp (mem_addToSide_self hplaced.left_length_le hleft)
          (mem_addToSide_self hplaced.right_length_le hright)
      · exact (onSide_addContact hplaced hrefuses hleft hright hsame).mpr
          ⟨hother, hothers other hother hsame⟩

/-- A call names the contacts that leave if and only if it does not make one leave for another. -/
theorem namesRemoved_iff (hplaced : Placed list) (call : RingCall) :
    NamesRemoved list call ↔ KeepsOthers list call := by
  cases call with
  | addContact contact => exact namesRemoved_addContact hplaced contact
  | removeContact contact =>
    cases contact with
    | none =>
      exact iff_of_true ⟨fun _ hevent ↦ absurd hevent List.not_mem_nil,
        fun _ hon hnot ↦ absurd hon hnot⟩ trivial
    | some contact => exact namesRemoved_removeContact hplaced contact

/-- In every state of a run the entries are at their distances. -/
theorem Placed.performAll (hplaced : Placed list) (calls : List RingCall) :
    Placed (ExactRing.performAll list calls) := by
  induction calls generalizing list with
  | nil => exact hplaced
  | cons call calls ih => exact ih (hplaced.perform call)

theorem placed_create (rawReferenceId : List UInt8) (excludedIds : List DhtAddress) :
    Placed (create package.toOrderedMapPackage rawReferenceId excludedIds) := by
  have hnone : package.entries package.new = [] := package.entries_new
  refine ⟨fun entry hmem ↦ ?_, fun entry hmem ↦ ?_, ?_, ?_⟩
  · exact absurd (hnone ▸ hmem) List.not_mem_nil
  · exact absurd (hnone ▸ hmem) List.not_mem_nil
  · exact hnone ▸ Nat.zero_le 5
  · exact hnone ▸ Nat.zero_le 5

/-- After adding contacts the sides have the closest ones if and only if enough of those that came
are near, on both sides. In a run every call names the contacts that leave if and only if none makes
a contact leave for another one. -/
theorem ring_sides_iff (package : SortedMapPackage PeerDescriptor) (rawReferenceId : List UInt8)
    (excludedIds : List DhtAddress) :
    (∀ contacts : List PeerDescriptor,
      let list := create package.toOrderedMapPackage rawReferenceId excludedIds
      let left := leftDistance list.referenceId
      let right := rightDistance list.referenceId
      let added := taken list.referenceId excludedIds contacts
      let after := performAll list (contacts.map .addContact)
      (Least left 5 (· ∈ added) (contactsOf after.leftNeighbors) ∧
          Least right 5 (· ∈ added) (contactsOf after.rightNeighbors)) ↔
        EnoughNear left added ∧ EnoughNear right added) ∧
    ∀ calls : List RingCall,
      (∀ before call later, calls = before ++ call :: later →
        NamesRemoved (performAll (create package.toOrderedMapPackage rawReferenceId excludedIds)
          before) call) ↔
      ∀ before call later, calls = before ++ call :: later →
        KeepsOthers (performAll (create package.toOrderedMapPackage rawReferenceId excludedIds)
          before) call := by
  refine ⟨fun contacts ↦ ?_, fun calls ↦ ?_⟩
  · dsimp only
    rw [performAll_addContact]
    exact and_congr (sideOf_least_iff _ _) (sideOf_least_iff _ _)
  · refine forall_congr' fun before ↦ forall_congr' fun call ↦ forall₂_congr fun _ _ ↦ ?_
    exact namesRemoved_iff ((placed_create rawReferenceId excludedIds).performAll before) call

/-! ### Contacts that come from near to far -/

/-- Ordered maps as ascending lists of entries. -/
def sortedLists : SortedMapPackage PeerDescriptor where
  OrderedMap := {entries : List (ℚ × PeerDescriptor) // entries.Pairwise (·.1 < ·.1)}
  new := ⟨[], List.Pairwise.nil⟩
  entries map := map.val
  size map := map.val.length
  back map := map.val.getLast?
  getElementByKey map key := (map.val.find? (·.1 = key)).map Prod.snd
  setElement map key value :=
    ⟨map.val.filter (·.1 < key) ++ (key, value) :: map.val.filter (key < ·.1), by
      refine List.pairwise_append.mpr ⟨map.property.filter _, List.pairwise_cons.mpr
        ⟨fun entry hmem ↦ ?_, map.property.filter _⟩, fun first hfirst second hsecond ↦ ?_⟩
      · exact of_decide_eq_true (List.mem_filter.mp hmem).2
      · have hbefore := of_decide_eq_true (List.mem_filter.mp hfirst).2
        rcases List.mem_cons.mp hsecond with rfl | hafter
        · exact hbefore
        · exact hbefore.trans (of_decide_eq_true (List.mem_filter.mp hafter).2)⟩
  eraseElementByKey map key := ⟨map.val.filter (·.1 ≠ key), map.property.filter _⟩
  eraseLast map := ⟨map.val.dropLast, map.property.sublist (List.dropLast_sublist _)⟩
  mem_eraseElementByKey map key entry := by simp
  sorted_entries map := map.property
  entries_new := rfl
  size_eq map := rfl
  back_eq map := rfl
  getElementByKey_eq_some_iff map key value := by
    rw [Option.map_eq_some_iff]
    constructor
    · rintro ⟨entry, hfind, rfl⟩
      have hkey : entry.1 = key := of_decide_eq_true (List.find?_some hfind :)
      exact hkey ▸ List.mem_of_find?_eq_some hfind
    · intro hmem
      cases hfind : map.val.find? (·.1 = key) with
      | none => exact absurd (decide_eq_true rfl) (List.find?_eq_none.mp hfind _ hmem)
      | some entry =>
        have hkey : entry.1 = key := of_decide_eq_true (List.find?_some hfind :)
        have hnodup : (map.val.map Prod.fst).Nodup :=
          List.pairwise_map.mpr (map.property.imp ne_of_lt)
        rw [List.inj_on_of_nodup_map hnodup (List.mem_of_find?_eq_some hfind) hmem hkey]
        exact ⟨_, rfl, rfl⟩
  mem_setElement map key value entry := by
    simp only [List.mem_append, List.mem_cons, List.mem_filter, decide_eq_true_eq]
    constructor
    · rintro (⟨hmem, hlt⟩ | rfl | ⟨hmem, hlt⟩)
      · exact Or.inr ⟨hmem, hlt.ne⟩
      · exact Or.inl rfl
      · exact Or.inr ⟨hmem, hlt.ne'⟩
    · rintro (rfl | ⟨hmem, hne⟩)
      · exact Or.inr (Or.inl rfl)
      · rcases lt_or_gt_of_ne hne with hlt | hlt
        · exact Or.inl ⟨hmem, hlt⟩
        · exact Or.inr (Or.inr ⟨hmem, hlt⟩)
  entries_eraseLast map := rfl

/-- A node without a known place, with a number below 256 as its ring id. -/
def smallPeer (last : UInt8) : PeerDescriptor :=
  ⟨⟨List.replicate 19 0 ++ [last], rfl⟩, ⟨none, none⟩⟩

/-- A list with the reference id 10, to which contacts were added. -/
def smallList (ids : List UInt8) : RingContactList sortedLists.toOrderedMapPackage :=
  performAll (create sortedLists.toOrderedMapPackage [10] [])
    ((ids.map smallPeer).map .addContact)

/-- The second nearest contact that comes after the nearest one is left out of a side with room, and
the contact for which a full side gives up another one is named as removed. -/
theorem second_nearest_left_out :
    (([9, 8].map smallPeer).map getRingIdFromPeerDescriptor = [9, 8] ∧
      ¬Least (leftDistance 10) 5 (· ∈ [9, 8].map smallPeer)
        (contactsOf (smallList [9, 8]).leftNeighbors)) ∧
    ¬NamesRemoved (smallList [4, 5, 6, 7, 8]) (.addContact (smallPeer 9)) := by
  refine ⟨⟨by decide +kernel, fun hleast ↦ ?_⟩, fun hnames ↦ ?_⟩
  · have hside : contactsOf (smallList [9, 8]).leftNeighbors = [smallPeer 9] := by decide +kernel
    rw [hside] at hleast
    have hfull := (hleast.left_out (smallPeer 8) (by decide) (by decide)).1
    cases hfull
  · refine hnames.1 (smallPeer 9) (by decide +kernel) (Or.inl ?_)
    decide +kernel

end Sorted

end ExactRing

end PomboStorageNode.Dht
