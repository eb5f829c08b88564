import PomboStorageNode.Dht.SortedContactList
import PomboStorageNode.Library.BinarySearch
import PomboStorageNode.Library.OrderedMap

/-!
# The two structures of a sorted contact list

`SortedContactList.ts` keeps the ids of its contacts in an array, in ascending order of distance,
and the contacts themselves in a map. A new id goes into the array where `sortedIndexBy` of a
package says, and `SortedIndexPackage` is what the list uses of it. Here every read that the source
takes to find something (`!`) is one that can fail.

The structures never get out of step: `Refines` relates them to the list of contacts that
`SortedContactList` is, every call is one of that list with the same events, and no read fails. The
contact that is kept of several with one id is the first that comes, so the closest nodes of an
input are the same ones for every order of the input, and are described by the same descriptors
when no two descriptors have one id.
-/

set_option autoImplicit false

namespace PomboStorageNode.Dht

open Library

/-- `sortedIndexBy` of the package: the lowest index at which a value can be inserted into an
ascending array. -/
structure SortedIndexPackage (Value Distance : Type*) [LinearOrder Distance] where
  sortedIndexBy : List Value → Value → (Value → Distance) → ℕ
  sortedIndexBy_spec : ∀ values value iteratee,
    (values.Pairwise fun first second ↦ iteratee first ≤ iteratee second) →
      sortedIndexBy values value iteratee ≤ values.length ∧
        (∀ other ∈ values.take (sortedIndexBy values value iteratee),
          iteratee other < iteratee value) ∧
        ∀ other ∈ values.drop (sortedIndexBy values value iteratee),
          iteratee value ≤ iteratee other

/-- The package that searches by halving. -/
def SortedIndexPackage.halving (Value Distance : Type*) [LinearOrder Distance] :
    SortedIndexPackage Value Distance where
  sortedIndexBy values value iteratee := BinarySearch.sortedIndex iteratee values value
  sortedIndexBy_spec _ _ _ hsorted := BinarySearch.sortedIndex_spec hsorted

variable {DhtAddress Remote : Type} {Distance : Type*} [LinearOrder Distance]
  [DecidableEq DhtAddress]

/-- `SortedContactList` with the two structures that it consists of. -/
structure SortedContactIds (DhtAddress Remote : Type) where
  options : SortedContactListOptions DhtAddress
  contactsById : OrderedMap DhtAddress (Contact DhtAddress Remote)
  contactIds : List DhtAddress

/-- A call to a list. -/
inductive ContactListCall (DhtAddress Remote : Type)
  | addContact (contact : Contact DhtAddress Remote)
  | removeContact (id : DhtAddress)

namespace SortedContactIds

variable (lodash : SortedIndexPackage DhtAddress Distance)
  (getPeerDistance : DhtAddress → DhtAddress → Distance)

/-- A new list. -/
def create (Remote : Type) (options : SortedContactListOptions DhtAddress) :
    SortedContactIds DhtAddress Remote :=
  ⟨options, OrderedMap.empty, []⟩

/-- `compareIds`: the sign of the difference of two distances. -/
def compareIds (options : SortedContactListOptions DhtAddress) (id1 id2 : DhtAddress) : Ordering :=
  compare (getPeerDistance options.referenceId id1) (getPeerDistance options.referenceId id2)

/-- The part of `addContact` that puts a contact into both structures. -/
def insertContact (list : SortedContactIds DhtAddress Remote)
    (contact : Contact DhtAddress Remote) : SortedContactIds DhtAddress Remote :=
  { list with
    contactsById := list.contactsById.set contact.nodeId contact
    contactIds := list.contactIds.insertIdx
      (lodash.sortedIndexBy list.contactIds contact.nodeId
        (getPeerDistance list.options.referenceId)) contact.nodeId }

/-- What a call emits: the events are emitted when there are event listeners. -/
def emit (hasEventListeners : Bool) (events : List (ContactEvent DhtAddress Remote)) :
    List (ContactEvent DhtAddress Remote) :=
  if hasEventListeners then events else []

omit [DecidableEq DhtAddress] in
@[simp] theorem emit_nil (hasEventListeners : Bool) :
    emit hasEventListeners ([] : List (ContactEvent DhtAddress Remote)) = [] :=
  ite_self []

/-- `addContact`, with the events that it emits. -/
def addContact (hasEventListeners : Bool) (list : SortedContactIds DhtAddress Remote)
    (contact : Contact DhtAddress Remote) :
    Option (SortedContactIds DhtAddress Remote × List (ContactEvent DhtAddress Remote)) :=
  if !SortedContactList.admits getPeerDistance list.options contact.nodeId then some (list, [])
  else if list.contactsById.has contact.nodeId then some (list, [])
  else if list.options.maxSize.all (list.contactIds.length < ·) then
    some (insertContact lodash getPeerDistance list contact,
      emit hasEventListeners [.contactAdded contact])
  else do
    let maxSize ← list.options.maxSize
    let furthest ← list.contactIds[maxSize - 1]?
    if compareIds getPeerDistance list.options furthest contact.nodeId = .gt then
      let removedId ← list.contactIds.getLast?
      let removedContact ← list.contactsById.get? removedId
      let popped := { list with
        contactsById := list.contactsById.delete removedId
        contactIds := list.contactIds.dropLast }
      some (insertContact lodash getPeerDistance popped contact,
        emit hasEventListeners [.contactRemoved removedContact, .contactAdded contact])
    else some (list, [])

/-- `removeContact`, with the events that it emits. An id that the array does not have has the index
`-1`, at which `splice` takes out the last one. -/
def removeContact (hasEventListeners : Bool) (list : SortedContactIds DhtAddress Remote)
    (id : DhtAddress) :
    Bool × SortedContactIds DhtAddress Remote × List (ContactEvent DhtAddress Remote) :=
  match list.contactsById.get? id with
  | some removed =>
    (true, { list with
        contactsById := list.contactsById.delete id
        contactIds := match list.contactIds.findIdx? (· = id) with
          | some index => list.contactIds.eraseIdx index
          | none => list.contactIds.dropLast },
      emit hasEventListeners [.contactRemoved removed])
  | none => (false, list, [])

/-- `getClosestContacts` without a limit. -/
def getClosestContacts (list : SortedContactIds DhtAddress Remote) :
    Option (List (Contact DhtAddress Remote)) :=
  list.contactIds.mapM list.contactsById.get?

/-- One call. -/
def perform (hasEventListeners : Bool) (list : SortedContactIds DhtAddress Remote) :
    ContactListCall DhtAddress Remote →
      Option (SortedContactIds DhtAddress Remote × List (ContactEvent DhtAddress Remote))
  | .addContact contact => addContact lodash getPeerDistance hasEventListeners list contact
  | .removeContact id => some (removeContact hasEventListeners list id).2

/-- Calls one after the other, with all the events. -/
def performAll (hasEventListeners : Bool) : SortedContactIds DhtAddress Remote →
    List (ContactListCall DhtAddress Remote) →
      Option (SortedContactIds DhtAddress Remote × List (ContactEvent DhtAddress Remote))
  | list, [] => some (list, [])
  | list, call :: calls => do
    let (next, events) ← perform lodash getPeerDistance hasEventListeners list call
    let (last, later) ← performAll hasEventListeners next calls
    some (last, events ++ later)

/-- `getClosestNodes`. -/
def getClosestNodes (referenceId : DhtAddress) (contacts : List (Contact DhtAddress Remote))
    (opts : ClosestNodesOptions DhtAddress) : Option (List (Contact DhtAddress Remote)) := do
  let (list, _) ← performAll lodash getPeerDistance false
    (create Remote (opts.listOptions referenceId)) (contacts.map .addContact)
  list.getClosestContacts

/-! ### The events -/

/-- What a listener that keeps a set of contacts does at an event. -/
def follow (contacts : OrderedMap DhtAddress (Contact DhtAddress Remote)) :
    ContactEvent DhtAddress Remote → OrderedMap DhtAddress (Contact DhtAddress Remote)
  | .contactAdded contact => contacts.set contact.nodeId contact
  | .contactRemoved contact => contacts.delete contact.nodeId

/-- The contacts of a listener after some events. -/
def replay (contacts : OrderedMap DhtAddress (Contact DhtAddress Remote))
    (events : List (ContactEvent DhtAddress Remote)) :
    OrderedMap DhtAddress (Contact DhtAddress Remote) :=
  events.foldl follow contacts

/-! ### Refinement -/

variable {lodash} {getPeerDistance}

/-- The two structures hold contacts: the ids in order, and each contact under its id. -/
structure Holds (stored : SortedContactIds DhtAddress Remote)
    (contacts : List (Contact DhtAddress Remote)) : Prop where
  contactIds_eq : stored.contactIds = contacts.map Contact.nodeId
  get?_iff : ∀ id contact, stored.contactsById.get? id = some contact ↔
    contact ∈ contacts ∧ contact.nodeId = id

namespace Holds

variable {stored : SortedContactIds DhtAddress Remote}
  {contacts : List (Contact DhtAddress Remote)} {contact : Contact DhtAddress Remote}

theorem create (options : SortedContactListOptions DhtAddress) :
    Holds (SortedContactIds.create Remote options) [] :=
  ⟨rfl, fun _ _ ↦ ⟨nofun, fun hmem ↦ absurd hmem.1 List.not_mem_nil⟩⟩

theorem get?_of_mem (hholds : Holds stored contacts) (hmem : contact ∈ contacts) :
    stored.contactsById.get? contact.nodeId = some contact :=
  (hholds.get?_iff _ _).mpr ⟨hmem, rfl⟩

theorem has_iff (hholds : Holds stored contacts) {id : DhtAddress} :
    stored.contactsById.has id = true ↔ id ∈ contacts.map Contact.nodeId := by
  rw [OrderedMap.has, Option.isSome_iff_exists]
  simp only [hholds.get?_iff]
  exact List.mem_map.symm

/-- Inserting a new contact. -/
theorem insertContact (hholds : Holds stored contacts)
    (hsorted : contacts.Pairwise fun first second ↦
      getPeerDistance stored.options.referenceId first.nodeId ≤
        getPeerDistance stored.options.referenceId second.nodeId)
    (hnew : contact.nodeId ∉ contacts.map Contact.nodeId) :
    Holds (SortedContactIds.insertContact lodash getPeerDistance stored contact)
      (contacts.orderedInsert
        (SortedContactList.distanceToReferenceId getPeerDistance stored.options · ≤
          SortedContactList.distanceToReferenceId getPeerDistance stored.options ·) contact) := by
  refine ⟨?_, fun id found ↦ ?_⟩
  · show stored.contactIds.insertIdx _ contact.nodeId = _
    obtain ⟨hindex, hbefore, hafter⟩ := lodash.sortedIndexBy_spec stored.contactIds contact.nodeId
      (getPeerDistance stored.options.referenceId)
      (hholds.contactIds_eq ▸ List.pairwise_map.mpr hsorted)
    rw [BinarySearch.insertIdx_eq_orderedInsert hindex hbefore hafter, hholds.contactIds_eq]
    exact (List.map_orderedInsert _ _ Contact.nodeId contacts contact (fun _ _ ↦ Iff.rfl)
      fun _ _ ↦ Iff.rfl).symm
  · show (stored.contactsById.set contact.nodeId contact).get? id = some found ↔ _
    rw [OrderedMap.get?_set_eq_some_iff, List.mem_orderedInsert, hholds.get?_iff]
    constructor
    · rintro (⟨rfl, rfl⟩ | ⟨-, hmem, hid⟩)
      · exact ⟨Or.inl rfl, rfl⟩
      · exact ⟨Or.inr hmem, hid⟩
    · rintro ⟨rfl | hmem, rfl⟩
      · exact Or.inl ⟨rfl, rfl⟩
      · exact Or.inr ⟨fun hsame ↦ hnew (hsame ▸ List.mem_map_of_mem hmem), hmem, rfl⟩

/-- Taking out a contact. -/
theorem delete (hholds : Holds stored contacts) {id : DhtAddress} {ids : List DhtAddress}
    {rest : List (Contact DhtAddress Remote)} (hids : ids = rest.map Contact.nodeId)
    (hrest : ∀ other, other ∈ rest ↔ other ∈ contacts ∧ other.nodeId ≠ id) :
    Holds { stored with
      contactsById := stored.contactsById.delete id
      contactIds := ids } rest := by
  refine ⟨hids, fun other found ↦ ?_⟩
  show (stored.contactsById.delete id).get? other = some found ↔ _
  rw [OrderedMap.get?_delete_eq_some_iff, hholds.get?_iff, hrest]
  constructor
  · rintro ⟨hne, hmem, rfl⟩
    exact ⟨⟨hmem, hne⟩, rfl⟩
  · rintro ⟨⟨hmem, hne⟩, rfl⟩
    exact ⟨hne, hmem, rfl⟩

/-- Taking out the last contact. -/
theorem pop {before : List (Contact DhtAddress Remote)} {last : Contact DhtAddress Remote}
    (hholds : Holds stored (before ++ [last]))
    (hnodup : ((before ++ [last]).map Contact.nodeId).Nodup) :
    stored.contactIds.getLast? = some last.nodeId ∧
      stored.contactsById.get? last.nodeId = some last ∧
      Holds { stored with
        contactsById := stored.contactsById.delete last.nodeId
        contactIds := stored.contactIds.dropLast } before := by
  have hids : stored.contactIds = before.map Contact.nodeId ++ [last.nodeId] := by
    rw [hholds.contactIds_eq, List.map_append, List.map_singleton]
  rw [List.map_append, List.map_singleton, List.nodup_append] at hnodup
  have hlast : last.nodeId ∉ before.map Contact.nodeId := fun hmem ↦
    hnodup.2.2 _ hmem _ List.mem_cons_self rfl
  refine ⟨by rw [hids, List.getLast?_concat],
    hholds.get?_of_mem (List.mem_append_right before List.mem_cons_self),
    hholds.delete (by rw [hids, List.dropLast_concat]) fun other ↦ ?_⟩
  rw [List.mem_append, List.mem_singleton]
  constructor
  · exact fun hmem ↦ ⟨Or.inl hmem, fun hsame ↦ hlast (hsame ▸ List.mem_map_of_mem hmem)⟩
  · rintro ⟨hmem | rfl, hne⟩
    · exact hmem
    · exact absurd rfl hne

/-- A lookup finds what `getContact` finds. -/
theorem get?_eq_find? (hholds : Holds stored contacts)
    (hnodup : (contacts.map Contact.nodeId).Nodup) (id : DhtAddress) :
    stored.contactsById.get? id = contacts.find? (·.nodeId = id) := by
  cases hget : stored.contactsById.get? id with
  | none =>
    refine (List.find?_eq_none.mpr fun other hmem hsame ↦ ?_).symm
    have hfound := hholds.get?_of_mem hmem
    rw [of_decide_eq_true hsame, hget] at hfound
    cases hfound
  | some found =>
    obtain ⟨hmem, hid⟩ := (hholds.get?_iff id found).mp hget
    cases hfind : contacts.find? (·.nodeId = id) with
    | none => exact absurd (decide_eq_true hid) (List.find?_eq_none.mp hfind found hmem)
    | some other =>
      have hother : other.nodeId = id := of_decide_eq_true (List.find?_some hfind :)
      exact congrArg some (List.inj_on_of_nodup_map hnodup hmem (List.mem_of_find?_eq_some hfind)
        (hid.trans hother.symm))

/-- Taking an id out of the array. -/
theorem eraseIdx_eq (hnodup : (contacts.map Contact.nodeId).Nodup) {id : DhtAddress}
    (hmem : id ∈ contacts.map Contact.nodeId) :
    (match (contacts.map Contact.nodeId).findIdx? (· = id) with
      | some index => (contacts.map Contact.nodeId).eraseIdx index
      | none => (contacts.map Contact.nodeId).dropLast) =
        (contacts.filter (·.nodeId ≠ id)).map Contact.nodeId := by
  have herase : (contacts.map Contact.nodeId).eraseP (fun other ↦ decide (other = id)) =
      (contacts.filter (·.nodeId ≠ id)).map Contact.nodeId := by
    calc (contacts.map Contact.nodeId).eraseP (fun other ↦ decide (other = id))
        = (contacts.map Contact.nodeId).erase id := (List.erase_eq_eraseP' _ _).symm
      _ = (contacts.map Contact.nodeId).filter (· != id) := hnodup.erase_eq_filter id
      _ = _ := by
        rw [List.filter_map]
        congr 2
        funext other
        exact (decide_not ..).symm
  rw [← herase, List.eraseP_eq_eraseIdx]
  cases hfind : (contacts.map Contact.nodeId).findIdx? (· = id) with
  | none => simpa using List.findIdx?_eq_none_iff.mp hfind id hmem
  | some index => rfl

end Holds

/-- Adding a contact does to the two structures what it does to the list, with the same events, and
a listener that keeps the contacts of the map keeps up with it. -/
theorem addContact_holds {stored : SortedContactIds DhtAddress Remote}
    {contacts : List (Contact DhtAddress Remote)}
    (hvalid : ValidContacts getPeerDistance stored.options contacts)
    (hholds : Holds stored contacts) (hasEventListeners : Bool)
    (contact : Contact DhtAddress Remote) :
    ∃ after, addContact lodash getPeerDistance hasEventListeners stored contact =
        some (after, emit hasEventListeners
          (SortedContactList.contactsWith getPeerDistance stored.options contacts contact).2) ∧
      after.options = stored.options ∧
      Holds after
        (SortedContactList.contactsWith getPeerDistance stored.options contacts contact).1 ∧
      after.contactsById = replay stored.contactsById
        (SortedContactList.contactsWith getPeerDistance stored.options contacts contact).2 := by
  have hlength : stored.contactIds.length = contacts.length := by
    rw [hholds.contactIds_eq, List.length_map]
  unfold addContact SortedContactList.contactsWith
  dsimp only
  rw [hlength]
  by_cases hadmits :
      (!SortedContactList.admits getPeerDistance stored.options contact.nodeId) = true
  · rw [if_pos hadmits, if_pos hadmits, emit_nil]
    exact ⟨stored, rfl, rfl, hholds, rfl⟩
  rw [if_neg hadmits, if_neg hadmits]
  by_cases hhas : contact.nodeId ∈ contacts.map Contact.nodeId
  · rw [if_pos (hholds.has_iff.mpr hhas), if_pos hhas, emit_nil]
    exact ⟨stored, rfl, rfl, hholds, rfl⟩
  rw [if_neg (hholds.has_iff.not.mpr hhas), if_neg hhas]
  by_cases hroom : stored.options.maxSize.all (contacts.length < ·) = true
  · rw [if_pos hroom, if_pos hroom]
    exact ⟨_, rfl, rfl, hholds.insertContact hvalid.sorted hhas, rfl⟩
  rw [if_neg hroom, if_neg hroom]
  -- the list is full, so that there is a last contact
  obtain ⟨maxSize, hmax⟩ : ∃ maxSize, stored.options.maxSize = some maxSize :=
    Option.ne_none_iff_exists'.mp fun hnone ↦ hroom (by rw [hnone, Option.all_none])
  have hfull : contacts.length = maxSize := by
    have hle := hvalid.length_le maxSize hmax
    rw [hmax, Option.all_some, decide_eq_true_eq] at hroom
    omega
  have hne : maxSize ≠ 0 := fun hzero ↦ stored.options.maxSize_ne_zero (hzero ▸ hmax)
  have hsome : contacts.getLast? ≠ none := fun hnone ↦ hne (by
    rw [List.getLast?_eq_none_iff.mp hnone] at hfull
    exact hfull.symm)
  obtain ⟨last, hlast⟩ := Option.ne_none_iff_exists'.mp hsome
  obtain ⟨before, rfl⟩ := List.getLast?_eq_some_iff.mp hlast
  obtain ⟨hpopped, hremoved, hbefore⟩ := hholds.pop hvalid.nodup
  have hfurthest : stored.contactIds[maxSize - 1]? = some last.nodeId := by
    rw [← hpopped, List.getLast?_eq_getElem?, hlength, hfull]
  rw [hmax, hlast, List.dropLast_concat]
  simp only [Option.bind_eq_bind, Option.bind_some, hfurthest, hpopped, hremoved]
  have hcompare : compareIds getPeerDistance stored.options last.nodeId contact.nodeId = .gt ↔
      SortedContactList.distanceToReferenceId getPeerDistance stored.options contact <
        SortedContactList.distanceToReferenceId getPeerDistance stored.options last :=
    compare_gt_iff_gt
  by_cases hcloser : SortedContactList.distanceToReferenceId getPeerDistance stored.options
      contact < SortedContactList.distanceToReferenceId getPeerDistance stored.options last
  · rw [if_pos (hcompare.mpr hcloser), if_pos hcloser]
    refine ⟨_, rfl, rfl, hbefore.insertContact ?_ ?_, rfl⟩
    · exact (List.pairwise_append.mp hvalid.sorted).1
    · exact fun hmem ↦ hhas (List.map_append ▸ List.mem_append_left _ hmem)
  · rw [if_neg (hcompare.not.mpr hcloser), if_neg hcloser, emit_nil]
    exact ⟨stored, rfl, rfl, hholds, rfl⟩

/-- The same for removing a contact. -/
theorem removeContact_holds {stored : SortedContactIds DhtAddress Remote}
    {contacts : List (Contact DhtAddress Remote)}
    (hnodup : (contacts.map Contact.nodeId).Nodup) (hholds : Holds stored contacts)
    (hasEventListeners : Bool) (id : DhtAddress) :
    ∃ after, (removeContact hasEventListeners stored id).2 =
        (after, emit hasEventListeners
          ((contacts.find? (·.nodeId = id)).map ContactEvent.contactRemoved).toList) ∧
      after.options = stored.options ∧ Holds after (contacts.filter (·.nodeId ≠ id)) ∧
      after.contactsById = replay stored.contactsById
        ((contacts.find? (·.nodeId = id)).map ContactEvent.contactRemoved).toList := by
  rw [← hholds.get?_eq_find? hnodup]
  unfold removeContact
  cases hget : stored.contactsById.get? id with
  | none =>
    have hkept : contacts.filter (·.nodeId ≠ id) = contacts :=
      List.filter_eq_self.mpr fun other hmem ↦ decide_eq_true fun hsame ↦ by
        have hfound := hholds.get?_of_mem hmem
        rw [hsame, hget] at hfound
        cases hfound
    rw [hkept]
    exact ⟨stored, by rw [Option.map_none, Option.toList_none, emit_nil], rfl, hholds, rfl⟩
  | some removed =>
    obtain ⟨hmem, rfl⟩ := (hholds.get?_iff id removed).mp hget
    refine ⟨_, rfl, rfl, hholds.delete ?_ fun other ↦ ?_, rfl⟩
    · rw [hholds.contactIds_eq]
      exact Holds.eraseIdx_eq hnodup (List.mem_map_of_mem hmem)
    · rw [List.mem_filter, decide_eq_true_eq]

/-- The closest contacts are found. -/
theorem Holds.getClosestContacts_eq {stored : SortedContactIds DhtAddress Remote}
    {contacts : List (Contact DhtAddress Remote)} (hholds : Holds stored contacts) :
    stored.getClosestContacts = some contacts := by
  have hfound {part : List (Contact DhtAddress Remote)} (hsubset : part ⊆ contacts) :
      part.mapM (fun contact ↦ stored.contactsById.get? contact.nodeId) = some part := by
    induction part with
    | nil => rfl
    | cons contact rest ih =>
      obtain ⟨hmem, hrest⟩ := List.cons_subset.mp hsubset
      rw [List.mapM_cons, hholds.get?_of_mem hmem, ih hrest]
      rfl
  rw [SortedContactIds.getClosestContacts, hholds.contactIds_eq, List.mapM_map]
  exact hfound (List.Subset.refl contacts)

/-! ### Runs -/

/-- The two structures are those of a list. -/
structure Refines (stored : SortedContactIds DhtAddress Remote)
    (list : SortedContactList getPeerDistance Remote) : Prop where
  options_eq : stored.options = list.options
  holds : Holds stored list.contacts

theorem Refines.create (options : SortedContactListOptions DhtAddress) :
    Refines (SortedContactIds.create Remote options)
      (SortedContactList.create getPeerDistance Remote options) :=
  ⟨rfl, Holds.create options⟩

/-- A call to the list, with its events. -/
def performOn (list : SortedContactList getPeerDistance Remote) :
    ContactListCall DhtAddress Remote →
      SortedContactList getPeerDistance Remote × List (ContactEvent DhtAddress Remote)
  | .addContact contact => list.addContact contact
  | .removeContact id => list.removeContact id

/-- Calls to the list one after the other, with all the events. -/
def performAllOn : SortedContactList getPeerDistance Remote →
    List (ContactListCall DhtAddress Remote) →
      SortedContactList getPeerDistance Remote × List (ContactEvent DhtAddress Remote)
  | list, [] => (list, [])
  | list, call :: calls =>
    ((performAllOn (performOn list call).1 calls).1,
      (performOn list call).2 ++ (performAllOn (performOn list call).1 calls).2)

omit [DecidableEq DhtAddress] in
theorem emit_append (hasEventListeners : Bool)
    (events later : List (ContactEvent DhtAddress Remote)) :
    emit hasEventListeners (events ++ later) =
      emit hasEventListeners events ++ emit hasEventListeners later := by
  unfold emit
  split_ifs
  · rfl
  · rfl

/-- A call does to the two structures what it does to the list. -/
theorem perform_refines {stored : SortedContactIds DhtAddress Remote}
    {list : SortedContactList getPeerDistance Remote} (hrefines : Refines stored list)
    (hasEventListeners : Bool) (call : ContactListCall DhtAddress Remote) :
    ∃ after, perform lodash getPeerDistance hasEventListeners stored call =
        some (after, emit hasEventListeners (performOn list call).2) ∧
      Refines after (performOn list call).1 ∧
      after.contactsById = replay stored.contactsById (performOn list call).2 := by
  obtain ⟨hoptions, hholds⟩ := hrefines
  cases call with
  | addContact contact =>
    obtain ⟨after, hafter, hsame, hholds, hreplay⟩ := @addContact_holds _ _ _ _ _ lodash
      getPeerDistance stored _ (hoptions ▸ list.valid) hholds hasEventListeners contact
    rw [hoptions] at hafter hholds hreplay
    exact ⟨after, hafter, ⟨hsame.trans hoptions, hholds⟩, hreplay⟩
  | removeContact id =>
    obtain ⟨after, hafter, hsame, hholds, hreplay⟩ :=
      removeContact_holds list.valid.nodup hholds hasEventListeners id
    exact ⟨after, congrArg some hafter, ⟨hsame.trans hoptions, hholds⟩, hreplay⟩

/-- The same for a run. -/
theorem performAll_refines {stored : SortedContactIds DhtAddress Remote}
    {list : SortedContactList getPeerDistance Remote} (hrefines : Refines stored list)
    (hasEventListeners : Bool) (calls : List (ContactListCall DhtAddress Remote)) :
    ∃ after, performAll lodash getPeerDistance hasEventListeners stored calls =
        some (after, emit hasEventListeners (performAllOn list calls).2) ∧
      Refines after (performAllOn list calls).1 ∧
      after.contactsById = replay stored.contactsById (performAllOn list calls).2 := by
  induction calls generalizing stored list with
  | nil => exact ⟨stored, by rw [performAll, performAllOn, emit_nil], hrefines, rfl⟩
  | cons call calls ih =>
    obtain ⟨next, hnext, hstep, hreplay⟩ :=
      @perform_refines _ _ _ _ _ lodash _ _ _ hrefines hasEventListeners call
    obtain ⟨after, hafter, hrest, hlater⟩ := ih hstep
    refine ⟨after, ?_, hrest, ?_⟩
    · simp only [performAll, hnext, hafter, performAllOn, emit_append, Option.bind_eq_bind,
        Option.bind_some]
    · rw [hlater, hreplay, performAllOn, replay, replay, replay, List.foldl_append]

/-- The options of a list stay what they are. -/
theorem options_performAllOn (list : SortedContactList getPeerDistance Remote)
    (calls : List (ContactListCall DhtAddress Remote)) :
    (performAllOn list calls).1.options = list.options := by
  induction calls generalizing list with
  | nil => rfl
  | cons call calls ih =>
    rw [performAllOn, ih]
    cases call with
    | addContact contact => rfl
    | removeContact id => rfl

theorem performAllOn_addContact (list : SortedContactList getPeerDistance Remote)
    (contacts : List (Contact DhtAddress Remote)) :
    (performAllOn list (contacts.map .addContact)).1 = list.addContacts contacts := by
  induction contacts generalizing list with
  | nil => rfl
  | cons contact contacts ih => exact ih _

/-- The list takes all that it contains. -/
theorem admits_of_mem_performAllOn {list : SortedContactList getPeerDistance Remote}
    (hadmits : ∀ contact ∈ list.contacts,
      SortedContactList.admits getPeerDistance list.options contact.nodeId = true)
    (calls : List (ContactListCall DhtAddress Remote)) :
    ∀ contact ∈ (performAllOn list calls).1.contacts,
      SortedContactList.admits getPeerDistance list.options contact.nodeId = true := by
  induction calls generalizing list with
  | nil => exact hadmits
  | cons call calls ih =>
    cases call with
    | addContact contact =>
      refine @ih (list.addContact contact).1 fun other hmem ↦ ?_
      by_cases htakes : SortedContactList.admits getPeerDistance list.options contact.nodeId = true
      · rcases SortedContactList.mem_of_mem_addContact hmem with rfl | hold
        · exact htakes
        · exact hadmits other hold
      · rw [SortedContactList.addContact_of_not_admits (Bool.eq_false_iff.mpr htakes)] at hmem
        exact hadmits other hmem
    | removeContact id =>
      exact @ih (list.removeContact id).1 fun other hmem ↦
        hadmits other (List.mem_of_mem_filter hmem)

theorem getClosestNodes_eq (referenceId : DhtAddress) (contacts : List (Contact DhtAddress Remote))
    (opts : ClosestNodesOptions DhtAddress) :
    getClosestNodes lodash getPeerDistance referenceId contacts opts =
      some (Dht.getClosestNodes getPeerDistance referenceId contacts opts) := by
  obtain ⟨after, hafter, hrefines, -⟩ := @performAll_refines _ Remote _ _ _ lodash getPeerDistance
    _ _ (Refines.create (opts.listOptions referenceId)) false (contacts.map .addContact)
  rw [performAllOn_addContact] at hrefines
  simp only [getClosestNodes, hafter, Option.bind_eq_bind, Option.bind_some]
  exact hrefines.holds.getClosestContacts_eq

/-- After any calls the ids are in strictly ascending order of distance, they are the keys of the
map, and no more than the list may have, and the list takes each of them; a listener that was there
from the start has the contacts of the map. After adding contacts, in any order and with
repetitions, the ids are the closest ones that the list takes. The closest nodes of an input are the
same ones for every order of it, described in the same way unless the input describes a node in two
ways. Assumes: no two ids have the same distance to the reference id. -/
theorem contactIds_exact (lodash : SortedIndexPackage DhtAddress Distance)
    (getPeerDistance : DhtAddress → DhtAddress → Distance)
    (options : SortedContactListOptions DhtAddress)
    (hinjective : Function.Injective (getPeerDistance options.referenceId)) :
    (∀ hasEventListeners (calls : List (ContactListCall DhtAddress Remote)), ∃ list events,
      performAll lodash getPeerDistance hasEventListeners (create Remote options) calls =
        some (list, events) ∧
      (list.contactIds.Pairwise fun first second ↦
        getPeerDistance options.referenceId first < getPeerDistance options.referenceId second) ∧
      (∀ id, id ∈ list.contactIds ↔ list.contactsById.has id = true) ∧
      (∀ maxSize, options.maxSize = some maxSize → list.contactIds.length ≤ maxSize) ∧
      (∀ id ∈ list.contactIds, id ∉ options.excludedNodeIds ∧
        ¬ (options.allowToContainReferenceId = false ∧ options.referenceId = id) ∧
        ∀ limit, options.nodeIdDistanceLimit = some limit →
          getPeerDistance options.referenceId id ≤ getPeerDistance options.referenceId limit) ∧
      (hasEventListeners = true → replay OrderedMap.empty events = list.contactsById) ∧
      ∀ contacts : List (Contact DhtAddress Remote), calls = contacts.map .addContact →
        Least (getPeerDistance options.referenceId) (options.maxSize.getD contacts.length)
          (fun id ↦ id ∈ contacts.map Contact.nodeId ∧
            SortedContactList.admits getPeerDistance options id = true) list.contactIds) ∧
    ∀ (contacts others : List (Contact DhtAddress Remote)) opts, contacts.Perm others →
      ∃ closest closestOthers,
        getClosestNodes lodash getPeerDistance options.referenceId contacts opts = some closest ∧
        getClosestNodes lodash getPeerDistance options.referenceId others opts =
          some closestOthers ∧
        Least (getPeerDistance options.referenceId) (opts.maxCount.getD contacts.length)
          (fun id ↦ id ∈ contacts.map Contact.nodeId ∧ id ∉ opts.excludedNodeIds)
          (closest.map Contact.nodeId) ∧
        closest.map Contact.nodeId = closestOthers.map Contact.nodeId ∧
        ((∀ first ∈ contacts, ∀ second ∈ contacts, first.nodeId = second.nodeId →
          first = second) → closest = closestOthers) := by
  refine ⟨fun hasEventListeners calls ↦ ?_, fun contacts others opts hperm ↦ ?_⟩
  · obtain ⟨after, hafter, ⟨-, hholds⟩, hreplay⟩ := @performAll_refines _ Remote _ _ _ lodash
      getPeerDistance _ _ (Refines.create options) hasEventListeners calls
    have hoptions := options_performAllOn (SortedContactList.create getPeerDistance Remote options)
      calls
    have hadmits := @admits_of_mem_performAllOn _ Remote _ _ _ getPeerDistance
      (SortedContactList.create getPeerDistance Remote options)
      (fun _ hmem ↦ absurd hmem List.not_mem_nil) calls
    have hvalid := (performAllOn (SortedContactList.create getPeerDistance Remote options)
      calls).1.valid
    rw [hoptions] at hvalid
    refine ⟨after, _, hafter, ?_, fun id ↦ ?_, fun maxSize hmax ↦ ?_, fun id hmem ↦ ?_,
      fun hlistening ↦ ?_, fun contacts hcalls ↦ ?_⟩
    · rw [hholds.contactIds_eq]
      have hnodup := List.pairwise_map.mp hvalid.nodup
      refine List.pairwise_map.mpr ((hvalid.sorted.and hnodup).imp fun hpair ↦ ?_)
      exact lt_of_le_of_ne hpair.1 fun hsame ↦ hpair.2 (hinjective hsame)
    · rw [hholds.has_iff, hholds.contactIds_eq]
    · rw [hholds.contactIds_eq, List.length_map]
      exact hvalid.length_le maxSize hmax
    · rw [hholds.contactIds_eq] at hmem
      obtain ⟨contact, hcontact, rfl⟩ := List.mem_map.mp hmem
      exact SortedContactList.admits_iff.mp (hadmits contact hcontact)
    · rw [hreplay, emit, if_pos hlistening]
      rfl
    · subst hcalls
      rw [hholds.contactIds_eq, performAllOn_addContact]
      exact SortedContactList.least_getContactIds_create getPeerDistance options contacts
  · have hleast := least_getClosestNodes getPeerDistance options.referenceId contacts opts
    exact ⟨_, _, getClosestNodes_eq _ _ _, getClosestNodes_eq _ _ _, hleast,
      nodeId_getClosestNodes_perm hinjective hperm opts,
      fun hunique ↦ getClosestNodes_perm hinjective hperm hunique opts⟩

/-- At most two contacts around an id. -/
def sampleOptions : SortedContactListOptions ℕ where
  referenceId := 6
  allowToContainReferenceId := false
  maxSize := some 2
  nodeIdDistanceLimit := none
  excludedNodeIds := [7]
  maxSize_ne_zero := nofun

theorem xor_injective (first : ℕ) : Function.Injective (first ^^^ ·) := fun second third hsame ↦ by
  have hagain := congrArg (first ^^^ ·) hsame
  simpa [← Nat.xor_assoc] using hagain

/-- Ids that come and go. -/
def sampleCalls : List (ContactListCall ℕ ℕ) :=
  [.addContact ⟨1, 0⟩, .addContact ⟨3, 0⟩, .addContact ⟨5, 0⟩, .removeContact 3]

theorem contactIds_exact_sample :
    ∃ list events, performAll (.halving ℕ ℕ) (· ^^^ ·) true (create ℕ sampleOptions) sampleCalls =
        some (list, events) ∧
      (list.contactIds.Pairwise fun first second ↦ 6 ^^^ first < 6 ^^^ second) ∧
      replay OrderedMap.empty events = list.contactsById := by
  obtain ⟨list, events, hrun, hsorted, -, -, -, hreplay, -⟩ :=
    (contactIds_exact (.halving ℕ ℕ) (· ^^^ ·) sampleOptions (xor_injective 6)).1 true sampleCalls
  exact ⟨list, events, hrun, hsorted, hreplay rfl⟩

/-- Of two descriptions of one node the first is kept. -/
theorem first_description_kept :
    ∃ contacts others : List (Contact ℕ ℕ), contacts.Perm others ∧
      getClosestNodes (.halving ℕ ℕ) (· ^^^ ·) 6 contacts ⟨none, [], nofun⟩ ≠
        getClosestNodes (.halving ℕ ℕ) (· ^^^ ·) 6 others ⟨none, [], nofun⟩ := by
  refine ⟨[⟨1, 0⟩, ⟨1, 1⟩], [⟨1, 1⟩, ⟨1, 0⟩], .swap _ _ _, ?_⟩
  rw [getClosestNodes_eq, getClosestNodes_eq]
  decide

end SortedContactIds

end PomboStorageNode.Dht
