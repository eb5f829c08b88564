import PomboStorageNode.Library.Least

/-!
# Lists of contacts sorted by distance

`SortedContactList.ts` keeps contacts in ascending order of their distance to a reference id, at
most `maxSize` of them. A contact that comes to a full list takes the place of the furthest one if
it is closer. The distance is that of the k-bucket package, of which only the order counts here.

`contactIds` and `contactsById` of the source are one list of contacts, whose ids are distinct. The
list carries the proof that it is valid, so that the sorted index of a new contact is where the
binary search of the source finds it.
-/

set_option autoImplicit false

namespace PomboStorageNode.Dht

open Library

/-- A contact: a node id with what is known of the node. -/
structure Contact (DhtAddress Remote : Type*) where
  nodeId : DhtAddress
  remote : Remote
  deriving DecidableEq

/-- The events of a list of contacts. -/
inductive ContactEvent (DhtAddress Remote : Type*)
  | contactRemoved (contact : Contact DhtAddress Remote)
  | contactAdded (contact : Contact DhtAddress Remote)
  deriving DecidableEq

/-- `SortedContactListOptions`; an absent set of excluded ids is an empty one. A list that may not
contain anything makes `addContact` throw. -/
structure SortedContactListOptions (DhtAddress : Type*) where
  referenceId : DhtAddress
  allowToContainReferenceId : Bool
  maxSize : Option ℕ
  nodeIdDistanceLimit : Option DhtAddress
  excludedNodeIds : List DhtAddress
  maxSize_ne_zero : maxSize ≠ some 0

variable {DhtAddress Remote Distance : Type*} [LinearOrder Distance]

/-- The contacts of a list: distinct ones, in ascending order of distance, and not too many. -/
structure ValidContacts (getPeerDistance : DhtAddress → DhtAddress → Distance)
    (options : SortedContactListOptions DhtAddress) (contacts : List (Contact DhtAddress Remote)) :
    Prop where
  nodup : (contacts.map Contact.nodeId).Nodup
  sorted : contacts.Pairwise fun first second ↦
    getPeerDistance options.referenceId first.nodeId ≤
      getPeerDistance options.referenceId second.nodeId
  length_le : ∀ maxSize, options.maxSize = some maxSize → contacts.length ≤ maxSize

/-- `SortedContactList`. -/
structure SortedContactList (getPeerDistance : DhtAddress → DhtAddress → Distance)
    (Remote : Type*) where
  options : SortedContactListOptions DhtAddress
  contacts : List (Contact DhtAddress Remote)
  valid : ValidContacts getPeerDistance options contacts

namespace SortedContactList

variable {getPeerDistance : DhtAddress → DhtAddress → Distance}

/-- A new list. -/
def create (getPeerDistance : DhtAddress → DhtAddress → Distance) (Remote : Type*)
    (options : SortedContactListOptions DhtAddress) :
    SortedContactList getPeerDistance Remote :=
  ⟨options, [], List.nodup_nil, List.Pairwise.nil, fun _ _ ↦ Nat.zero_le _⟩

/-- `distanceToReferenceId`. -/
def distanceToReferenceId (getPeerDistance : DhtAddress → DhtAddress → Distance)
    (options : SortedContactListOptions DhtAddress) (contact : Contact DhtAddress Remote) :
    Distance :=
  getPeerDistance options.referenceId contact.nodeId

/-- `getContactIds`. -/
def getContactIds (list : SortedContactList getPeerDistance Remote) : List DhtAddress :=
  list.contacts.map Contact.nodeId

/-- `getClosestContacts` without a limit. -/
def getClosestContacts (list : SortedContactList getPeerDistance Remote) :
    List (Contact DhtAddress Remote) := list.contacts

/-- `getSize` without excluded ids. -/
def getSize (list : SortedContactList getPeerDistance Remote) : ℕ := list.contacts.length

variable [DecidableEq DhtAddress]

/-- `has`. -/
def has (list : SortedContactList getPeerDistance Remote) (id : DhtAddress) : Bool :=
  id ∈ list.getContactIds

/-- `getContact`. -/
def getContact (list : SortedContactList getPeerDistance Remote) (id : DhtAddress) :
    Option (Contact DhtAddress Remote) :=
  list.contacts.find? (·.nodeId = id)

/-- Whether a list with these options takes a contact: it is not excluded, not the reference where
that is not allowed, and not further away than the limit. -/
def admits (getPeerDistance : DhtAddress → DhtAddress → Distance)
    (options : SortedContactListOptions DhtAddress) (id : DhtAddress) : Bool :=
  id ∉ options.excludedNodeIds ∧
    ¬ ((options.allowToContainReferenceId = false ∧ options.referenceId = id) ∨
      options.nodeIdDistanceLimit.any fun limit ↦
        getPeerDistance options.referenceId limit < getPeerDistance options.referenceId id)

theorem admits_iff {options : SortedContactListOptions DhtAddress} {id : DhtAddress} :
    admits getPeerDistance options id = true ↔ id ∉ options.excludedNodeIds ∧
      ¬ (options.allowToContainReferenceId = false ∧ options.referenceId = id) ∧
      ∀ limit, options.nodeIdDistanceLimit = some limit →
        getPeerDistance options.referenceId id ≤ getPeerDistance options.referenceId limit := by
  rw [admits, decide_eq_true_eq, not_or]
  refine and_congr_right fun _ ↦ and_congr_right fun _ ↦ ?_
  cases options.nodeIdDistanceLimit with
  | none => simp
  | some limit => simp

/-- The contacts that a list with these options takes. -/
def eligible (getPeerDistance : DhtAddress → DhtAddress → Distance)
    (options : SortedContactListOptions DhtAddress) (contacts : List (Contact DhtAddress Remote)) :
    List (Contact DhtAddress Remote) :=
  contacts.filter fun contact ↦ admits getPeerDistance options contact.nodeId

theorem mem_eligible {options : SortedContactListOptions DhtAddress}
    {contacts : List (Contact DhtAddress Remote)} {contact : Contact DhtAddress Remote} :
    contact ∈ eligible getPeerDistance options contacts ↔
      contact ∈ contacts ∧ admits getPeerDistance options contact.nodeId = true :=
  List.mem_filter

theorem eligible_cons (options : SortedContactListOptions DhtAddress)
    (contacts : List (Contact DhtAddress Remote)) (contact : Contact DhtAddress Remote) :
    eligible getPeerDistance options (contact :: contacts) =
      if admits getPeerDistance options contact.nodeId = true then
        contact :: eligible getPeerDistance options contacts
      else eligible getPeerDistance options contacts :=
  List.filter_cons

theorem eligible_append (options : SortedContactListOptions DhtAddress)
    (first second : List (Contact DhtAddress Remote)) :
    eligible getPeerDistance options (first ++ second) =
      eligible getPeerDistance options first ++ eligible getPeerDistance options second :=
  List.filter_append ..

/-- The contacts and the events of `addContact`. -/
def contactsWith (getPeerDistance : DhtAddress → DhtAddress → Distance)
    (options : SortedContactListOptions DhtAddress) (contacts : List (Contact DhtAddress Remote))
    (contact : Contact DhtAddress Remote) :
    List (Contact DhtAddress Remote) × List (ContactEvent DhtAddress Remote) :=
  let distance := distanceToReferenceId getPeerDistance options
  let insert := List.orderedInsert (distance · ≤ distance ·) contact
  if !admits getPeerDistance options contact.nodeId then (contacts, [])
  else if contact.nodeId ∈ contacts.map Contact.nodeId then (contacts, [])
  else if options.maxSize.all (contacts.length < ·) then
    (insert contacts, [.contactAdded contact])
  else match contacts.getLast? with
    | some last =>
      if distance contact < distance last then
        (insert contacts.dropLast, [.contactRemoved last, .contactAdded contact])
      else (contacts, [])
    | none => (contacts, [])

/-- What `addContact` can do: nothing, or insert a new contact, possibly in place of the last
one. -/
theorem contactsWith_cases {options : SortedContactListOptions DhtAddress}
    {contacts : List (Contact DhtAddress Remote)}
    (hvalid : ValidContacts getPeerDistance options contacts)
    (contact : Contact DhtAddress Remote) :
    contactsWith getPeerDistance options contacts contact = (contacts, []) ∨
    (admits getPeerDistance options contact.nodeId = true ∧
      contact.nodeId ∉ contacts.map Contact.nodeId ∧
      ∃ kept dropped, contacts = kept ++ dropped ∧
        (∀ maxSize, options.maxSize = some maxSize → kept.length < maxSize) ∧
        contactsWith getPeerDistance options contacts contact =
          (kept.orderedInsert (distanceToReferenceId getPeerDistance options · ≤
              distanceToReferenceId getPeerDistance options ·) contact,
            dropped.map .contactRemoved ++ [.contactAdded contact])) := by
  unfold contactsWith
  dsimp only
  split_ifs with hadmits hmem hroom
  · exact Or.inl rfl
  · exact Or.inl rfl
  · refine Or.inr ⟨by simpa using hadmits, hmem, contacts, [], (List.append_nil _).symm,
      fun maxSize hmax ↦ ?_, rfl⟩
    simpa [hmax] using hroom
  · cases hlast : contacts.getLast? with
    | none => exact Or.inl rfl
    | some last =>
      obtain ⟨before, rfl⟩ := List.getLast?_eq_some_iff.mp hlast
      dsimp only
      split_ifs with hcloser
      · refine Or.inr ⟨by simpa using hadmits, hmem, before, [last], rfl, fun maxSize hmax ↦ ?_, ?_⟩
        · have hle := hvalid.length_le maxSize hmax
          rw [List.length_append, List.length_singleton] at hle
          exact hle
        · rw [List.dropLast_concat]
          rfl
      · exact Or.inl rfl

theorem valid_contactsWith {options : SortedContactListOptions DhtAddress}
    {contacts : List (Contact DhtAddress Remote)}
    (hvalid : ValidContacts getPeerDistance options contacts)
    (contact : Contact DhtAddress Remote) :
    ValidContacts getPeerDistance options
      (contactsWith getPeerDistance options contacts contact).1 := by
  rcases contactsWith_cases hvalid contact with
    hsame | ⟨-, hnew, kept, dropped, rfl, hroom, hwith⟩
  · exact hsame ▸ hvalid
  rw [hwith]
  have hkept : kept.Sublist (kept ++ dropped) := List.sublist_append_left _ _
  refine ⟨?_, ?_, fun maxSize hmax ↦ ?_⟩
  · have hperm := (List.perm_orderedInsert (distanceToReferenceId getPeerDistance options · ≤
      distanceToReferenceId getPeerDistance options ·) contact kept).map Contact.nodeId
    rw [hperm.nodup_iff, List.map_cons, List.nodup_cons]
    exact ⟨fun hmem ↦ hnew ((hkept.map _).subset hmem), hvalid.nodup.sublist (hkept.map _)⟩
  · exact (hvalid.sorted.sublist hkept).orderedInsert contact kept
  · rw [List.orderedInsert_length]
    exact hroom maxSize hmax

/-- `addContact`, with the events that it emits. -/
def addContact (list : SortedContactList getPeerDistance Remote)
    (contact : Contact DhtAddress Remote) :
    SortedContactList getPeerDistance Remote × List (ContactEvent DhtAddress Remote) :=
  (⟨list.options, (contactsWith getPeerDistance list.options list.contacts contact).1,
      valid_contactsWith list.valid contact⟩,
    (contactsWith getPeerDistance list.options list.contacts contact).2)

/-- `addContacts`. -/
def addContacts (list : SortedContactList getPeerDistance Remote)
    (contacts : List (Contact DhtAddress Remote)) : SortedContactList getPeerDistance Remote :=
  contacts.foldl (fun list contact ↦ (list.addContact contact).1) list

/-- `removeContact`, with the events that it emits. -/
def removeContact (list : SortedContactList getPeerDistance Remote) (id : DhtAddress) :
    SortedContactList getPeerDistance Remote × List (ContactEvent DhtAddress Remote) :=
  (⟨list.options, list.contacts.filter (·.nodeId ≠ id),
      list.valid.nodup.sublist (List.filter_sublist.map _), list.valid.sorted.filter _,
      fun maxSize hmax ↦ (List.length_filter_le _ _).trans (list.valid.length_le maxSize hmax)⟩,
    ((list.getContact id).map .contactRemoved).toList)

@[simp] theorem options_addContact (list : SortedContactList getPeerDistance Remote)
    (contact : Contact DhtAddress Remote) : (list.addContact contact).1.options = list.options :=
  rfl

theorem has_iff {list : SortedContactList getPeerDistance Remote} {id : DhtAddress} :
    list.has id = true ↔ ∃ contact ∈ list.contacts, contact.nodeId = id := by
  rw [has, decide_eq_true_eq]
  exact List.mem_map

theorem has_removeContact {list : SortedContactList getPeerDistance Remote}
    {id other : DhtAddress} :
    (list.removeContact id).1.has other = true ↔ list.has other = true ∧ other ≠ id := by
  simp only [has_iff, removeContact, List.mem_filter, decide_eq_true_eq]
  constructor
  · rintro ⟨contact, ⟨hmem, hne⟩, rfl⟩
    exact ⟨⟨contact, hmem, rfl⟩, hne⟩
  · rintro ⟨⟨contact, hmem, rfl⟩, hne⟩
    exact ⟨contact, ⟨hmem, hne⟩, rfl⟩

/-- A contact that is found has the id that was asked for. -/
theorem mem_of_getContact {list : SortedContactList getPeerDistance Remote} {id : DhtAddress}
    {contact : Contact DhtAddress Remote} (hget : list.getContact id = some contact) :
    contact ∈ list.contacts ∧ contact.nodeId = id :=
  ⟨List.mem_of_find?_eq_some hget, by simpa using List.find?_some hget⟩

/-! ### Adding one contact -/

omit [DecidableEq DhtAddress] in
@[ext] theorem ext {first second : SortedContactList getPeerDistance Remote}
    (hoptions : first.options = second.options) (hcontacts : first.contacts = second.contacts) :
    first = second := by
  cases first
  cases second
  cases hoptions
  cases hcontacts
  rfl

/-- A contact that the list does not take is not added. -/
theorem addContact_of_not_admits {list : SortedContactList getPeerDistance Remote}
    {contact : Contact DhtAddress Remote}
    (hadmits : admits getPeerDistance list.options contact.nodeId = false) :
    (list.addContact contact).1 = list := by
  ext1
  · rfl
  · simp [addContact, contactsWith, hadmits]

/-- A contact with an id of the list is not added. -/
theorem addContact_of_has {list : SortedContactList getPeerDistance Remote}
    {contact : Contact DhtAddress Remote} (hhas : list.has contact.nodeId = true) :
    (list.addContact contact).1 = list := by
  have hmem : contact.nodeId ∈ list.contacts.map Contact.nodeId := of_decide_eq_true hhas
  ext1
  · rfl
  · by_cases hadmits : admits getPeerDistance list.options contact.nodeId = true
    · simp [addContact, contactsWith, hadmits, List.mem_map.mp hmem]
    · simp [addContact, contactsWith, hadmits]

/-- A new contact is inserted into the least ones. Assumes: the limit is that of the list, which
matters only for whether the list is full. -/
theorem contacts_addContact_of_limit {list : SortedContactList getPeerDistance Remote} {limit : ℕ}
    {contact : Contact DhtAddress Remote}
    (hlimit : (list.options.maxSize.all (list.contacts.length < ·)) =
      decide (list.contacts.length < limit))
    (hadmits : admits getPeerDistance list.options contact.nodeId = true)
    (hnew : list.has contact.nodeId = false) :
    (list.addContact contact).1.contacts =
      insertLeast (distanceToReferenceId getPeerDistance list.options) limit contact
        list.contacts := by
  have hmem : contact.nodeId ∉ list.contacts.map Contact.nodeId := of_decide_eq_false hnew
  have hsplit : (list.addContact contact).1.contacts =
      (contactsWith getPeerDistance list.options list.contacts contact).1 := rfl
  rw [hsplit, insertLeast]
  unfold contactsWith
  dsimp only
  rw [hadmits, if_neg (by simp), if_neg hmem, hlimit]
  by_cases hroom : list.contacts.length < limit
  · rw [if_pos (decide_eq_true hroom), if_pos hroom]
  rw [if_neg (by simpa using hroom), if_neg hroom]
  cases hlast : list.contacts.getLast? with
  | none => rfl
  | some last =>
    dsimp only
    split_ifs
    · rfl
    · rfl

/-- A new contact is inserted into the least ones, in a list with a limit. -/
theorem contacts_addContact {list : SortedContactList getPeerDistance Remote} {limit : ℕ}
    {contact : Contact DhtAddress Remote} (hmax : list.options.maxSize = some limit)
    (hadmits : admits getPeerDistance list.options contact.nodeId = true)
    (hnew : list.has contact.nodeId = false) :
    (list.addContact contact).1.contacts =
      insertLeast (distanceToReferenceId getPeerDistance list.options) limit contact
        list.contacts :=
  contacts_addContact_of_limit (by rw [hmax, Option.all_some]) hadmits hnew

/-- A list with room gets a new contact without losing one. -/
theorem contacts_addContact_of_room {list : SortedContactList getPeerDistance Remote} {limit : ℕ}
    {contact : Contact DhtAddress Remote} (hmax : list.options.maxSize = some limit)
    (hadmits : admits getPeerDistance list.options contact.nodeId = true)
    (hnew : list.has contact.nodeId = false) (hroom : list.contacts.length < limit) :
    (list.addContact contact).1.contacts =
      list.contacts.orderedInsert (distanceToReferenceId getPeerDistance list.options · ≤
        distanceToReferenceId getPeerDistance list.options ·) contact := by
  rw [contacts_addContact hmax hadmits hnew, insertLeast, if_pos hroom]

/-! ### Adding several contacts -/

@[simp] theorem options_addContacts (list : SortedContactList getPeerDistance Remote)
    (contacts : List (Contact DhtAddress Remote)) :
    (list.addContacts contacts).options = list.options := by
  induction contacts generalizing list with
  | nil => rfl
  | cons contact contacts ih => exact ih _

theorem addContacts_append (list : SortedContactList getPeerDistance Remote)
    (first second : List (Contact DhtAddress Remote)) :
    list.addContacts (first ++ second) = (list.addContacts first).addContacts second :=
  List.foldl_append

/-- Contacts that the list does not take make no difference. -/
theorem addContacts_eligible (list : SortedContactList getPeerDistance Remote)
    (contacts : List (Contact DhtAddress Remote)) :
    list.addContacts (eligible getPeerDistance list.options contacts) =
      list.addContacts contacts := by
  induction contacts generalizing list with
  | nil => rfl
  | cons contact contacts ih =>
    rw [eligible_cons]
    split_ifs with hadmits
    · exact ih (list.addContact contact).1
    · rw [ih list]
      exact congrArg (addContacts · contacts)
        (addContact_of_not_admits (Bool.eq_false_iff.mpr hadmits)).symm

/-- Adding contacts with new ids to a list of the least ones gives a list of the least ones. -/
theorem least_addContacts {list : SortedContactList getPeerDistance Remote} {limit : ℕ}
    {seen contacts : List (Contact DhtAddress Remote)} (hmax : list.options.maxSize = some limit)
    (hnodup : ((seen ++ contacts).map Contact.nodeId).Nodup)
    (hleast : Least (distanceToReferenceId getPeerDistance list.options) limit
      (fun contact ↦ contact ∈ seen ∧ admits getPeerDistance list.options contact.nodeId = true)
      list.contacts) :
    Least (distanceToReferenceId getPeerDistance list.options) limit
      (fun contact ↦ contact ∈ seen ++ contacts ∧
        admits getPeerDistance list.options contact.nodeId = true)
      (list.addContacts contacts).contacts := by
  induction contacts generalizing list seen with
  | nil => rwa [List.append_nil]
  | cons contact contacts ih =>
    have hnot : contact.nodeId ∉ seen.map Contact.nodeId := fun hmem ↦ by
      rw [List.map_append, List.nodup_append] at hnodup
      exact hnodup.2.2 _ hmem _ (List.mem_map_of_mem List.mem_cons_self) rfl
    have hstep : Least (distanceToReferenceId getPeerDistance list.options) limit
        (fun other ↦ other ∈ seen ++ [contact] ∧
          admits getPeerDistance list.options other.nodeId = true)
        (list.addContact contact).1.contacts := by
      by_cases hadmits : admits getPeerDistance list.options contact.nodeId = true
      · have hnew : list.has contact.nodeId = false := by
          rw [← Bool.not_eq_true, has_iff]
          rintro ⟨other, hother, hsame⟩
          exact hnot (List.mem_map.mpr ⟨other, (hleast.pool_of_mem other hother).1, hsame⟩)
        rw [contacts_addContact hmax hadmits hnew]
        refine (hleast.insert fun hpool ↦ hnot (List.mem_map_of_mem hpool.1)).congr fun other ↦ ?_
        rw [List.mem_append, List.mem_singleton]
        constructor
        · rintro (rfl | hpool)
          · exact ⟨Or.inr rfl, hadmits⟩
          · exact ⟨Or.inl hpool.1, hpool.2⟩
        · rintro ⟨hseen | rfl, hother⟩
          · exact Or.inr ⟨hseen, hother⟩
          · exact Or.inl rfl
      · rw [addContact_of_not_admits (Bool.eq_false_iff.mpr hadmits)]
        refine hleast.congr fun other ↦ ?_
        rw [List.mem_append, List.mem_singleton]
        constructor
        · exact fun hpool ↦ ⟨Or.inl hpool.1, hpool.2⟩
        · rintro ⟨hseen | rfl, hother⟩
          · exact ⟨hseen, hother⟩
          · exact absurd hother hadmits
    rw [List.append_cons] at hnodup ⊢
    have hoptions : (list.addContact contact).1.options.maxSize = some limit := hmax
    exact ih hoptions hnodup hstep

/-- The ids after one contact was added, where some ids were added before: the least ones of those
that were added, the new one among them. The limit is that of the list, and anything that is never
reached if the list has none. -/
theorem least_getContactIds_addContact {list : SortedContactList getPeerDistance Remote}
    {seen : List DhtAddress} {limit : ℕ} (contact : Contact DhtAddress Remote)
    (hsome : ∀ maxSize, list.options.maxSize = some maxSize → limit = maxSize)
    (hnone : list.options.maxSize = none → seen.length < limit)
    (hleast : Least (getPeerDistance list.options.referenceId) limit
      (fun id ↦ id ∈ seen ∧ admits getPeerDistance list.options id = true) list.getContactIds) :
    Least (getPeerDistance list.options.referenceId) limit
      (fun id ↦ id ∈ seen ++ [contact.nodeId] ∧ admits getPeerDistance list.options id = true)
      (list.addContact contact).1.getContactIds := by
  have hpool (id : DhtAddress) : (id ∈ seen ++ [contact.nodeId] ∧
      admits getPeerDistance list.options id = true) ↔
      (id = contact.nodeId ∧ admits getPeerDistance list.options id = true) ∨
        id ∈ seen ∧ admits getPeerDistance list.options id = true := by
    rw [List.mem_append, List.mem_singleton, or_and_right, or_comm]
  by_cases hadmits : admits getPeerDistance list.options contact.nodeId = true
  swap
  · rw [addContact_of_not_admits (Bool.eq_false_iff.mpr hadmits)]
    refine hleast.congr fun id ↦ (or_iff_right ?_).symm.trans (hpool id).symm
    rintro ⟨rfl, htakes⟩
    exact hadmits htakes
  cases hhas : list.has contact.nodeId with
  | true =>
    rw [addContact_of_has hhas]
    have hseen := (hleast.pool_of_mem _ (of_decide_eq_true hhas)).1
    refine hleast.congr fun id ↦ (or_iff_right_of_imp ?_).symm.trans (hpool id).symm
    rintro ⟨rfl, htakes⟩
    exact ⟨hseen, htakes⟩
  | false =>
    have hnot : contact.nodeId ∉ list.getContactIds := of_decide_eq_false hhas
    have hlength : list.contacts.length ≤ seen.length := by
      have hsubset : list.getContactIds ⊆ seen := fun id hmem ↦ (hleast.pool_of_mem id hmem).1
      have hle := hleast.nodup.length_le_of_subset hsubset
      rwa [getContactIds, List.length_map] at hle
    have hlimit : list.options.maxSize.all (list.contacts.length < ·) =
        decide (list.contacts.length < limit) := by
      cases hmax : list.options.maxSize with
      | none => exact (decide_eq_true (Nat.lt_of_le_of_lt hlength (hnone hmax))).symm
      | some maxSize => rw [Option.all_some, hsome maxSize hmax]
    have hinsert : (list.addContact contact).1.getContactIds =
        insertLeast (getPeerDistance list.options.referenceId) limit contact.nodeId
          list.getContactIds := by
      rw [getContactIds, contacts_addContact_of_limit hlimit hadmits hhas]
      exact map_insertLeast _ Contact.nodeId limit contact list.contacts
    rw [hinsert]
    by_cases hseen : contact.nodeId ∈ seen
    · -- it was left out, or put out, before
      rw [hleast.insertLeast_of_pool ⟨hseen, hadmits⟩ hnot]
      refine hleast.congr fun id ↦ (or_iff_right_of_imp ?_).symm.trans (hpool id).symm
      rintro ⟨rfl, htakes⟩
      exact ⟨hseen, htakes⟩
    · refine (hleast.insert fun hmem ↦ hseen hmem.1).congr fun id ↦ ?_
      rw [hpool]
      refine or_congr_left (and_iff_left_of_imp ?_).symm
      rintro rfl
      exact hadmits

/-- The ids of a list to which contacts were added, in any order and with repetitions, are the least
ones that it takes. -/
theorem least_getContactIds_addContacts {list : SortedContactList getPeerDistance Remote}
    {seen : List DhtAddress} {contacts : List (Contact DhtAddress Remote)} {limit : ℕ}
    (hsome : ∀ maxSize, list.options.maxSize = some maxSize → limit = maxSize)
    (hnone : list.options.maxSize = none → seen.length + contacts.length ≤ limit)
    (hleast : Least (getPeerDistance list.options.referenceId) limit
      (fun id ↦ id ∈ seen ∧ admits getPeerDistance list.options id = true) list.getContactIds) :
    Least (getPeerDistance list.options.referenceId) limit
      (fun id ↦ id ∈ seen ++ contacts.map Contact.nodeId ∧
        admits getPeerDistance list.options id = true)
      (list.addContacts contacts).getContactIds := by
  induction contacts generalizing list seen with
  | nil => rwa [List.map_nil, List.append_nil]
  | cons contact contacts ih =>
    rw [List.length_cons] at hnone
    have hstep := least_getContactIds_addContact contact hsome
      (fun hmax ↦ Nat.lt_of_lt_of_le (by omega) (hnone hmax)) hleast
    rw [List.map_cons, List.append_cons]
    refine @ih (list.addContact contact).1 _ hsome (fun hmax ↦ ?_) hstep
    rw [List.length_append, List.length_singleton]
    exact Nat.le_trans (by omega) (hnone hmax)

/-- The ids of a new list to which contacts were added. -/
theorem least_getContactIds_create (getPeerDistance : DhtAddress → DhtAddress → Distance)
    (options : SortedContactListOptions DhtAddress) (contacts : List (Contact DhtAddress Remote)) :
    Least (getPeerDistance options.referenceId) (options.maxSize.getD contacts.length)
      (fun id ↦ id ∈ contacts.map Contact.nodeId ∧ admits getPeerDistance options id = true)
      ((create getPeerDistance Remote options).addContacts contacts).getContactIds := by
  refine @least_getContactIds_addContacts _ _ _ _ _ _ (create getPeerDistance Remote options) []
    contacts _ (fun maxSize hmax ↦ ?_) (fun hmax ↦ ?_)
    (Least.nil fun id hpool ↦ List.not_mem_nil hpool.1)
  · change options.maxSize = some maxSize at hmax
    rw [hmax, Option.getD_some]
  · change options.maxSize = none at hmax
    rw [hmax, Option.getD_none, List.length_nil, Nat.zero_add]

/-- The contacts of a list were in it before, or were added. -/
theorem mem_of_mem_addContact {list : SortedContactList getPeerDistance Remote}
    {contact other : Contact DhtAddress Remote}
    (hmem : other ∈ (list.addContact contact).1.contacts) :
    other = contact ∨ other ∈ list.contacts := by
  have hsplit : (list.addContact contact).1.contacts =
      (contactsWith getPeerDistance list.options list.contacts contact).1 := rfl
  rw [hsplit] at hmem
  rcases contactsWith_cases list.valid contact with hsame | ⟨-, -, kept, dropped, hcut, -, hwith⟩
  · rw [hsame] at hmem
    exact Or.inr hmem
  · rw [hwith, List.mem_orderedInsert] at hmem
    exact hmem.imp_right fun hkept ↦ hcut ▸ List.mem_append_left dropped hkept

theorem mem_of_mem_addContacts {list : SortedContactList getPeerDistance Remote}
    {contacts : List (Contact DhtAddress Remote)} {other : Contact DhtAddress Remote}
    (hmem : other ∈ (list.addContacts contacts).contacts) :
    other ∈ contacts ∨ other ∈ list.contacts := by
  induction contacts generalizing list with
  | nil => exact Or.inr hmem
  | cons contact contacts ih =>
    rcases ih hmem with hlater | hbefore
    · exact Or.inl (List.mem_cons_of_mem contact hlater)
    · rcases mem_of_mem_addContact hbefore with rfl | hold
      · exact Or.inl List.mem_cons_self
      · exact Or.inr hold

/-! ### Removing a contact -/

/-- Taking items out of a sorted list and inserting one into it commute. -/
theorem filter_orderedInsert {Item : Type*} {key : Item → Distance} (keep : Item → Bool)
    {item : Item} {items : List Item}
    (hsorted : items.Pairwise fun first second ↦ key first ≤ key second) :
    (items.orderedInsert (key · ≤ key ·) item).filter keep =
      if keep item = true then (items.filter keep).orderedInsert (key · ≤ key ·) item
      else items.filter keep := by
  induction items with
  | nil => cases hkeep : keep item <;> simp [hkeep]
  | cons first items ih =>
    obtain ⟨hfirst, hrest⟩ := List.pairwise_cons.mp hsorted
    rw [List.orderedInsert_cons]
    by_cases hle : key item ≤ key first
    · rw [if_pos hle, List.filter_cons]
      refine if_congr Iff.rfl ?_ rfl
      -- the item goes in front of whatever is left of the list
      cases hkept : (first :: items).filter keep with
      | nil => rfl
      | cons head kept =>
        have hhead : head ∈ first :: items :=
          List.mem_of_mem_filter (hkept ▸ List.mem_cons_self)
        have hbefore : key item ≤ key head := by
          rcases List.mem_cons.mp hhead with rfl | hmem
          · exact hle
          · exact hle.trans (hfirst head hmem)
        rw [List.orderedInsert_cons, if_pos hbefore]
    · rw [if_neg hle]
      cases hkeep : keep first with
      | true =>
        rw [List.filter_cons_of_pos hkeep, ih hrest, List.filter_cons_of_pos hkeep,
          List.orderedInsert_cons, if_neg hle]
        split_ifs
        · rfl
        · rfl
      | false =>
        rw [List.filter_cons_of_neg (by simp [hkeep]), ih hrest,
          List.filter_cons_of_neg (by simp [hkeep])]

/-- Removing after adding, in a list with room. -/
theorem removeContact_addContact {list : SortedContactList getPeerDistance Remote} {limit : ℕ}
    {contact : Contact DhtAddress Remote} {id : DhtAddress}
    (hmax : list.options.maxSize = some limit) (hroom : list.contacts.length < limit) :
    ((list.addContact contact).1.removeContact id).1 =
      if contact.nodeId = id then (list.removeContact id).1
      else ((list.removeContact id).1.addContact contact).1 := by
  by_cases hadmits : admits getPeerDistance list.options contact.nodeId = true
  swap
  · have hadmits := Bool.eq_false_iff.mpr hadmits
    have hremoved : admits getPeerDistance (list.removeContact id).1.options contact.nodeId =
        false := hadmits
    rw [addContact_of_not_admits hadmits, addContact_of_not_admits hremoved, ite_self]
  cases hhas : list.has contact.nodeId with
  | true =>
    rw [addContact_of_has hhas]
    split_ifs with hid
    · rfl
    · rw [addContact_of_has (has_removeContact.mpr ⟨hhas, hid⟩)]
  | false =>
    ext1
    · split_ifs
      · rfl
      · rfl
    have hadded := contacts_addContact_of_room hmax hadmits hhas hroom
    have hfilter : ((list.addContact contact).1.removeContact id).1.contacts =
        (list.addContact contact).1.contacts.filter (·.nodeId ≠ id) := rfl
    have hsorted : list.contacts.Pairwise fun first second ↦
        distanceToReferenceId getPeerDistance list.options first ≤
          distanceToReferenceId getPeerDistance list.options second := list.valid.sorted
    rw [hfilter, hadded, filter_orderedInsert _ hsorted]
    by_cases hid : contact.nodeId = id
    · rw [if_neg (by simpa using hid), if_pos hid]
      rfl
    · have hnew : (list.removeContact id).1.has contact.nodeId = false := by
        rw [← Bool.not_eq_true, has_removeContact, hhas]
        simp
      have hroom' : (list.removeContact id).1.contacts.length < limit :=
        (List.length_filter_le _ _).trans_lt hroom
      have hoptions : (list.removeContact id).1.options.maxSize = some limit := hmax
      rw [if_pos (by simpa using hid), if_neg hid,
        contacts_addContact_of_room hoptions hadmits hnew hroom']
      rfl

/-- The length of a list grows by at most one when a contact is added, and not when the list does
not take the contact. -/
theorem length_addContact_le (list : SortedContactList getPeerDistance Remote)
    (contact : Contact DhtAddress Remote) :
    (list.addContact contact).1.contacts.length ≤
      list.contacts.length + (eligible getPeerDistance list.options [contact]).length := by
  rw [eligible_cons]
  split_ifs with hadmits
  swap
  · rw [addContact_of_not_admits (Bool.eq_false_iff.mpr hadmits)]
    exact Nat.le_add_right _ _
  have hsplit : (list.addContact contact).1.contacts =
      (contactsWith getPeerDistance list.options list.contacts contact).1 := rfl
  rw [hsplit, List.length_cons]
  rcases contactsWith_cases list.valid contact with hsame | ⟨-, -, kept, dropped, hcut, -, hwith⟩
  · rw [hsame]
    exact Nat.le_add_right _ _
  · rw [hwith, List.orderedInsert_length, hcut, List.length_append]
    omega

/-- Removing after adding, in a list with room for all the contacts that it takes: it is as if the
removed one had not been added. -/
theorem removeContact_addContacts {list : SortedContactList getPeerDistance Remote} {limit : ℕ}
    {contacts : List (Contact DhtAddress Remote)} {id : DhtAddress}
    (hmax : list.options.maxSize = some limit)
    (hroom : list.contacts.length + (eligible getPeerDistance list.options contacts).length ≤
      limit) :
    ((list.addContacts contacts).removeContact id).1 =
      (list.removeContact id).1.addContacts (contacts.filter (·.nodeId ≠ id)) := by
  induction contacts generalizing list with
  | nil => rfl
  | cons contact contacts ih =>
    have hcons : (eligible getPeerDistance list.options (contact :: contacts)).length =
        (eligible getPeerDistance list.options [contact]).length +
          (eligible getPeerDistance list.options contacts).length := by
      rw [← List.length_append, ← eligible_append, List.singleton_append]
    have hlength := length_addContact_le list contact
    have hoptions : (list.addContact contact).1.options.maxSize = some limit := hmax
    have hrest := ih hoptions (by rw [options_addContact]; omega)
    have hone : ((list.addContact contact).1.removeContact id).1 =
        if contact.nodeId = id then (list.removeContact id).1
        else ((list.removeContact id).1.addContact contact).1 := by
      rw [eligible_cons] at hroom
      split_ifs at hroom with hadmits
      · rw [List.length_cons] at hroom
        exact removeContact_addContact hmax (Nat.lt_of_lt_of_le (by omega) hroom)
      · have hadmits := Bool.eq_false_iff.mpr hadmits
        have hremoved : admits getPeerDistance (list.removeContact id).1.options contact.nodeId =
            false := hadmits
        rw [addContact_of_not_admits hadmits, addContact_of_not_admits hremoved, ite_self]
    change (((list.addContact contact).1.addContacts contacts).removeContact id).1 = _
    rw [hrest, hone]
    by_cases hid : contact.nodeId = id
    · rw [if_pos hid, List.filter_cons_of_neg (by simpa using hid)]
    · rw [if_neg hid, List.filter_cons_of_pos (by simpa using hid)]
      rfl

end SortedContactList

/-! ### Closest nodes -/

/-- The options of `getClosestNodes`; an absent set of excluded ids is an empty one. -/
structure ClosestNodesOptions (DhtAddress : Type*) where
  maxCount : Option ℕ
  excludedNodeIds : List DhtAddress
  maxCount_ne_zero : maxCount ≠ some 0

/-- The options of the list in `getClosestNodes`. -/
def ClosestNodesOptions.listOptions (opts : ClosestNodesOptions DhtAddress)
    (referenceId : DhtAddress) : SortedContactListOptions DhtAddress where
  referenceId := referenceId
  allowToContainReferenceId := true
  maxSize := opts.maxCount
  nodeIdDistanceLimit := none
  excludedNodeIds := opts.excludedNodeIds
  maxSize_ne_zero := opts.maxCount_ne_zero

variable [DecidableEq DhtAddress] {getPeerDistance : DhtAddress → DhtAddress → Distance}

/-- `getClosestNodes`. -/
def getClosestNodes (getPeerDistance : DhtAddress → DhtAddress → Distance)
    (referenceId : DhtAddress) (contacts : List (Contact DhtAddress Remote))
    (opts : ClosestNodesOptions DhtAddress) : List (Contact DhtAddress Remote) :=
  ((SortedContactList.create getPeerDistance Remote (opts.listOptions referenceId)).addContacts
    contacts).getClosestContacts

theorem admits_listOptions {opts : ClosestNodesOptions DhtAddress} {referenceId id : DhtAddress} :
    SortedContactList.admits getPeerDistance (opts.listOptions referenceId) id = true ↔
      id ∉ opts.excludedNodeIds := by
  rw [SortedContactList.admits_iff]
  simp [ClosestNodesOptions.listOptions]

/-- The closest nodes are some of the contacts. -/
theorem mem_of_mem_getClosestNodes {referenceId : DhtAddress}
    {contacts : List (Contact DhtAddress Remote)} {opts : ClosestNodesOptions DhtAddress}
    {contact : Contact DhtAddress Remote}
    (hmem : contact ∈ getClosestNodes getPeerDistance referenceId contacts opts) :
    contact ∈ contacts :=
  (SortedContactList.mem_of_mem_addContacts hmem).resolve_right List.not_mem_nil

/-- The ids of the closest nodes are the closest ids that are not excluded. -/
theorem least_getClosestNodes (getPeerDistance : DhtAddress → DhtAddress → Distance)
    (referenceId : DhtAddress) (contacts : List (Contact DhtAddress Remote))
    (opts : ClosestNodesOptions DhtAddress) :
    Least (getPeerDistance referenceId) (opts.maxCount.getD contacts.length)
      (fun id ↦ id ∈ contacts.map Contact.nodeId ∧ id ∉ opts.excludedNodeIds)
      ((getClosestNodes getPeerDistance referenceId contacts opts).map Contact.nodeId) := by
  have hleast := SortedContactList.least_getContactIds_create getPeerDistance
    (opts.listOptions referenceId) contacts
  exact hleast.congr fun id ↦ and_congr Iff.rfl admits_listOptions

/-- The closest nodes are the same ones for every order of the contacts. Assumes: no two ids have the
same distance. -/
theorem nodeId_getClosestNodes_perm {referenceId : DhtAddress}
    {contacts others : List (Contact DhtAddress Remote)}
    (hinjective : Function.Injective (getPeerDistance referenceId)) (hperm : contacts.Perm others)
    (opts : ClosestNodesOptions DhtAddress) :
    (getClosestNodes getPeerDistance referenceId contacts opts).map Contact.nodeId =
      (getClosestNodes getPeerDistance referenceId others opts).map Contact.nodeId := by
  have hothers := least_getClosestNodes getPeerDistance referenceId others opts
  rw [← hperm.length_eq] at hothers
  exact (least_getClosestNodes getPeerDistance referenceId contacts opts).unique
    (fun _ _ _ _ hsame ↦ hinjective hsame)
    (hothers.congr fun id ↦ and_congr_left fun _ ↦ ((hperm.map Contact.nodeId).mem_iff).symm)

/-- They have the same descriptions if no two contacts have one id. -/
theorem getClosestNodes_perm {referenceId : DhtAddress}
    {contacts others : List (Contact DhtAddress Remote)}
    (hinjective : Function.Injective (getPeerDistance referenceId)) (hperm : contacts.Perm others)
    (hunique : ∀ first ∈ contacts, ∀ second ∈ contacts, first.nodeId = second.nodeId →
      first = second) (opts : ClosestNodesOptions DhtAddress) :
    getClosestNodes getPeerDistance referenceId contacts opts =
      getClosestNodes getPeerDistance referenceId others opts := by
  have hsame := nodeId_getClosestNodes_perm hinjective hperm opts
  refine List.ext_getElem ?_ fun index hfirst hsecond ↦ ?_
  · have hlength := congrArg List.length hsame
    rwa [List.length_map, List.length_map] at hlength
  · refine hunique _ (mem_of_mem_getClosestNodes (List.getElem_mem hfirst)) _
      (hperm.mem_iff.mpr (mem_of_mem_getClosestNodes (List.getElem_mem hsecond))) ?_
    have hindex := congrArg (·[index]?) hsame
    rw [List.getElem?_map, List.getElem?_map, List.getElem?_eq_getElem hfirst,
      List.getElem?_eq_getElem hsecond] at hindex
    exact Option.some.inj hindex

end PomboStorageNode.Dht
