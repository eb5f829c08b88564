import Mathlib.Data.List.Perm.Subperm
import PomboStorageNode.Dht.SortedContactList
import PomboStorageNode.Library.OrderedMap
import PomboStorageNode.Library.Transition

/-!
# Discovery sessions

`DiscoverySession.ts` asks the closest known nodes that have not been contacted for the nodes that
they know, and passes these to the peer manager. A request is a promise, and its handlers run one
after the other: on success or on failure, and in the end a search for more contacts. Between them
anything may happen to the neighbours and the nearby contacts of the peer manager, so that a handler
gets them with its event; other sessions add to the nodes that have been contacted.

The handler of a response compares the closest neighbours before and after the contacts were added.
When there is no neighbour before, it throws, and the contacts are lost (`sound_iff_of_reachable`).
The other handler then finds that the request is not an ongoing one any more, and does not remove the
node. `Books` is the invariant: what the history of a session says about its sets and its calls.
-/

set_option autoImplicit false

namespace PomboStorageNode.Dht.Discovery

open Library

variable {DhtAddress Remote : Type} {Distance : Type*} [LinearOrder Distance]

/-- `DiscoverySessionOptions`: the limits. -/
structure DiscoverySessionOptions (DhtAddress : Type) where
  targetId : DhtAddress
  parallelism : ℕ
  noProgressLimit : ℕ
  parallelism_ne_zero : parallelism ≠ 0

/-- What a session does to the peer manager. -/
inductive PeerManagerCall (DhtAddress Remote : Type)
  | addContact (contact : Contact DhtAddress Remote)
  | removeContact (nodeId : DhtAddress)

/-- A response as the handler gets it: whether the session was over, and the neighbours of the peer
manager at the two times when the handler reads them. -/
structure Answer (DhtAddress Remote : Type) where
  nodeId : DhtAddress
  contacts : List (Contact DhtAddress Remote)
  isOver : Bool
  oldNeighbors : List (Contact DhtAddress Remote)
  newNeighbors : List (Contact DhtAddress Remote)

/-- `DiscoverySession`, with the promises of its requests: those that are not settled, those that are
rejected, and the number of searches that are to be made. The rest is history. -/
structure DiscoverySession (DhtAddress Remote : Type) where
  noProgressCounter : ℕ
  ongoingRequests : OrderedSet DhtAddress
  done : Bool
  aborted : Bool
  contactedPeers : OrderedSet DhtAddress
  requests : List DhtAddress
  rejected : List DhtAddress
  searches : ℕ
  asked : List DhtAddress
  calls : List (PeerManagerCall DhtAddress Remote)
  answers : List (Answer DhtAddress Remote)

/-- What happens to a session. -/
inductive Event (DhtAddress Remote : Type)
  | responded (nodeId : DhtAddress) (contacts : List (Contact DhtAddress Remote))
      (oldNeighbors newNeighbors : List (Contact DhtAddress Remote))
  | failed (nodeId : DhtAddress)
  | caught (nodeId : DhtAddress)
  | searched (nearbyContacts : List (Contact DhtAddress Remote))
  | contacted (nodeId : DhtAddress)
  | aborted

/-- A session that was started with some contacted nodes. -/
def create (Remote : Type) (contactedPeers : OrderedSet DhtAddress) :
    DiscoverySession DhtAddress Remote :=
  ⟨0, .empty, false, false, contactedPeers, [], [], 1, [], [], []⟩

/-- The session is done or aborted. -/
def DiscoverySession.isOver (session : DiscoverySession DhtAddress Remote) : Bool :=
  session.aborted || session.done

/-- `addContacts`. -/
def addContacts (session : DiscoverySession DhtAddress Remote)
    (contacts : List (Contact DhtAddress Remote)) : DiscoverySession DhtAddress Remote :=
  if session.isOver then session
  else { session with calls := session.calls ++ contacts.map .addContact }

variable [DecidableEq DhtAddress]

/-- `fetchClosestNeighborsFromRemote` up to the request. -/
def fetchClosestNeighborsFromRemote (session : DiscoverySession DhtAddress Remote)
    (nodeId : DhtAddress) : DiscoverySession DhtAddress Remote :=
  if session.isOver then { session with requests := session.requests ++ [nodeId] }
  else { session with
    contactedPeers := session.contactedPeers.add nodeId
    asked := session.asked ++ [nodeId]
    requests := session.requests ++ [nodeId] }

/-- `onRequestFailed`. -/
def onRequestFailed (session : DiscoverySession DhtAddress Remote) (nodeId : DhtAddress) :
    DiscoverySession DhtAddress Remote :=
  if nodeId ∉ session.ongoingRequests then session
  else { session with
    ongoingRequests := session.ongoingRequests.delete nodeId
    calls := session.calls ++ [.removeContact nodeId] }

variable (getPeerDistance : DhtAddress → DhtAddress → Distance)
  (options : DiscoverySessionOptions DhtAddress)

/-- The options of `getClosestNodes` in `getClosestNeighbor`. -/
def closestOptions (DhtAddress : Type) : ClosestNodesOptions DhtAddress := ⟨some 1, [], nofun⟩

/-- `getClosestNeighbor`, which may be `undefined`. -/
def getClosestNeighbor (neighbors : List (Contact DhtAddress Remote)) :
    Option (Contact DhtAddress Remote) :=
  (getClosestNodes getPeerDistance options.targetId neighbors (closestOptions DhtAddress)).head?

/-- `onRequestSucceeded`, and whether it throws. -/
def onRequestSucceeded (session : DiscoverySession DhtAddress Remote) (nodeId : DhtAddress)
    (contacts oldNeighbors newNeighbors : List (Contact DhtAddress Remote)) :
    DiscoverySession DhtAddress Remote × Bool :=
  if nodeId ∉ session.ongoingRequests then (session, false)
  else
    let deleted := { session with ongoingRequests := session.ongoingRequests.delete nodeId }
    match getClosestNeighbor getPeerDistance options oldNeighbors with
    | none => (deleted, true)
    | some oldClosestNeighbor =>
      let added := addContacts deleted contacts
      match getClosestNeighbor getPeerDistance options newNeighbors with
      | none => (added, true)
      | some newClosestNeighbor =>
        if getPeerDistance options.targetId oldClosestNeighbor.nodeId ≤
            getPeerDistance options.targetId newClosestNeighbor.nodeId then
          ({ added with noProgressCounter := added.noProgressCounter + 1 }, false)
        else (added, false)

/-- The options of `getClosestNodes` in `findMoreContacts`. -/
def uncontactedOptions (session : DiscoverySession DhtAddress Remote) :
    ClosestNodesOptions DhtAddress where
  maxCount := some options.parallelism
  excludedNodeIds := session.contactedPeers.elements
  maxCount_ne_zero := fun hzero ↦ options.parallelism_ne_zero (Option.some.inj hzero)

/-- The nodes that `findMoreContacts` may ask. -/
def uncontacted (session : DiscoverySession DhtAddress Remote)
    (nearbyContacts : List (Contact DhtAddress Remote)) : List (Contact DhtAddress Remote) :=
  getClosestNodes getPeerDistance options.targetId nearbyContacts
    (uncontactedOptions options session)

/-- The loop of `findMoreContacts`. -/
def askAll : DiscoverySession DhtAddress Remote → List (Contact DhtAddress Remote) →
    DiscoverySession DhtAddress Remote
  | session, [] => session
  | session, node :: nodes =>
    if options.parallelism ≤ session.ongoingRequests.elements.length then session
    else askAll (fetchClosestNeighborsFromRemote
      { session with ongoingRequests := session.ongoingRequests.add node.nodeId } node.nodeId) nodes

/-- `findMoreContacts`. -/
def findMoreContacts (session : DiscoverySession DhtAddress Remote)
    (nearbyContacts : List (Contact DhtAddress Remote)) : DiscoverySession DhtAddress Remote :=
  if session.isOver then session
  else if (uncontacted getPeerDistance options session nearbyContacts = [] ∧
      session.ongoingRequests.elements = []) ∨
      options.noProgressLimit ≤ session.noProgressCounter then
    { session with done := true }
  else askAll options session (uncontacted getPeerDistance options session nearbyContacts)

/-- One event. The promise of a request is settled once; when the first handler throws, the second
one is called, and in the end there is a search. -/
def step (session : DiscoverySession DhtAddress Remote) :
    Event DhtAddress Remote → Option (DiscoverySession DhtAddress Remote)
  | .responded nodeId contacts oldNeighbors newNeighbors =>
    if nodeId ∉ session.requests then none
    else
      let settled := { session with
        requests := session.requests.erase nodeId
        answers := session.answers ++
          [⟨nodeId, contacts, session.isOver, oldNeighbors, newNeighbors⟩] }
      match onRequestSucceeded getPeerDistance options settled nodeId contacts oldNeighbors
        newNeighbors with
      | (after, true) => some { after with rejected := after.rejected ++ [nodeId] }
      | (after, false) => some { after with searches := after.searches + 1 }
  | .failed nodeId =>
    if nodeId ∉ session.requests then none
    else some { session with
      requests := session.requests.erase nodeId
      rejected := session.rejected ++ [nodeId] }
  | .caught nodeId =>
    if nodeId ∉ session.rejected then none
    else some { onRequestFailed session nodeId with
      rejected := session.rejected.erase nodeId
      searches := session.searches + 1 }
  | .searched nearbyContacts =>
    if session.searches = 0 then none
    else some { findMoreContacts getPeerDistance options session nearbyContacts with
      searches := session.searches - 1 }
  | .contacted nodeId =>
    some { session with contactedPeers := session.contactedPeers.add nodeId }
  | .aborted => some { session with aborted := true }

/-! ### What the handlers do -/

variable {getPeerDistance} {options}

/-- There is a closest neighbour if and only if there are neighbours. -/
theorem getClosestNeighbor_eq_none_iff {neighbors : List (Contact DhtAddress Remote)} :
    getClosestNeighbor getPeerDistance options neighbors = none ↔ neighbors = [] := by
  rw [getClosestNeighbor, List.head?_eq_none_iff]
  constructor
  · intro hnil
    have hleast := least_getClosestNodes getPeerDistance options.targetId neighbors
      (closestOptions DhtAddress)
    rw [hnil] at hleast
    refine List.eq_nil_iff_forall_not_mem.mpr fun neighbor hmem ↦ ?_
    have hfull := (hleast.left_out neighbor.nodeId
      ⟨List.mem_map_of_mem hmem, List.not_mem_nil⟩ List.not_mem_nil).1
    cases hfull
  · rintro rfl
    rfl

/-- What a request of a session that is not over records. -/
theorem fetchClosestNeighborsFromRemote_eq {session : DiscoverySession DhtAddress Remote}
    (nodeId : DhtAddress) (hover : session.isOver = false) :
    fetchClosestNeighborsFromRemote
      { session with ongoingRequests := session.ongoingRequests.add nodeId } nodeId = { session with
        ongoingRequests := session.ongoingRequests.add nodeId
        contactedPeers := session.contactedPeers.add nodeId
        asked := session.asked ++ [nodeId]
        requests := session.requests ++ [nodeId] } := by
  apply if_neg
  show ¬session.isOver = true
  rw [hover]
  exact Bool.false_ne_true

theorem onRequestFailed_frame (session : DiscoverySession DhtAddress Remote)
    (nodeId : DhtAddress) : (onRequestFailed session nodeId).rejected = session.rejected ∧
      (onRequestFailed session nodeId).asked = session.asked ∧
      (onRequestFailed session nodeId).done = session.done := by
  unfold onRequestFailed
  split_ifs
  · exact ⟨rfl, rfl, rfl⟩
  · exact ⟨rfl, rfl, rfl⟩

theorem step_searched {session after : DiscoverySession DhtAddress Remote}
    {nearbyContacts : List (Contact DhtAddress Remote)}
    (hstep : step getPeerDistance options session (.searched nearbyContacts) = some after) :
    ∃ searches, after = { findMoreContacts getPeerDistance options session nearbyContacts with
      searches := searches } := by
  simp only [step] at hstep
  split_ifs at hstep
  exact ⟨_, (Option.some.inj hstep).symm⟩

/-- The loop of a search asks some of its nodes, and does not end the session. -/
theorem askAll_asked (session : DiscoverySession DhtAddress Remote)
    (nodes : List (Contact DhtAddress Remote)) (hover : session.isOver = false) :
    (∀ id ∈ (askAll options session nodes).asked,
      id ∈ session.asked ∨ id ∈ nodes.map Contact.nodeId) ∧
    (askAll options session nodes).done = session.done := by
  induction nodes generalizing session with
  | nil => exact ⟨fun _ ↦ Or.inl, rfl⟩
  | cons node nodes ih =>
    unfold askAll
    split_ifs
    · exact ⟨fun _ ↦ Or.inl, rfl⟩
    · rw [fetchClosestNeighborsFromRemote_eq node.nodeId hover]
      obtain ⟨hasked, hdone⟩ := ih { session with
        ongoingRequests := session.ongoingRequests.add node.nodeId
        contactedPeers := session.contactedPeers.add node.nodeId
        asked := session.asked ++ [node.nodeId]
        requests := session.requests ++ [node.nodeId] } hover
      refine ⟨fun id hmem ↦ ?_, hdone⟩
      rcases hasked id hmem with hmem | hmem
      · refine (List.mem_append.mp hmem).imp_right fun hmem ↦ ?_
        rw [List.mem_singleton.mp hmem]
        exact List.mem_cons_self
      · exact Or.inr (List.mem_cons_of_mem _ hmem)

/-- No neighbour is closer after a response than before. -/
def Answer.noCloser (getPeerDistance : DhtAddress → DhtAddress → Distance)
    (options : DiscoverySessionOptions DhtAddress) (answer : Answer DhtAddress Remote) : Bool :=
  match getClosestNeighbor getPeerDistance options answer.oldNeighbors,
    getClosestNeighbor getPeerDistance options answer.newNeighbors with
  | some oldClosestNeighbor, some newClosestNeighbor =>
    getPeerDistance options.targetId oldClosestNeighbor.nodeId ≤
      getPeerDistance options.targetId newClosestNeighbor.nodeId
  | _, _ => false

/-- The contacts of a response that are passed on. -/
def Answer.passed (answer : Answer DhtAddress Remote) : List (Contact DhtAddress Remote) :=
  if answer.isOver = true ∨ answer.oldNeighbors = [] then [] else answer.contacts

/-- The contacts that were passed to `addContact`. -/
def addedContacts (calls : List (PeerManagerCall DhtAddress Remote)) :
    List (Contact DhtAddress Remote) :=
  calls.filterMap fun
    | .addContact contact => some contact
    | .removeContact _ => none

omit [DecidableEq DhtAddress] in
@[simp] theorem addedContacts_append (first second : List (PeerManagerCall DhtAddress Remote)) :
    addedContacts (first ++ second) = addedContacts first ++ addedContacts second :=
  List.filterMap_append

omit [DecidableEq DhtAddress] in
@[simp] theorem addedContacts_map (contacts : List (Contact DhtAddress Remote)) :
    addedContacts (contacts.map PeerManagerCall.addContact) = contacts := by
  rw [addedContacts, List.filterMap_map]
  exact List.filterMap_some

/-- The session after a response whose request was ongoing. -/
def DiscoverySession.answered (getPeerDistance : DhtAddress → DhtAddress → Distance)
    (options : DiscoverySessionOptions DhtAddress) (session : DiscoverySession DhtAddress Remote)
    (answer : Answer DhtAddress Remote) : DiscoverySession DhtAddress Remote :=
  { session with
    requests := session.requests.erase answer.nodeId
    ongoingRequests := session.ongoingRequests.delete answer.nodeId
    answers := session.answers ++ [answer]
    calls := session.calls ++ answer.passed.map .addContact
    noProgressCounter := session.noProgressCounter +
      if answer.noCloser getPeerDistance options then 1 else 0 }

/-- What the handler of a response does to an ongoing request. -/
theorem onRequestSucceeded_eq {session : DiscoverySession DhtAddress Remote}
    {answer : Answer DhtAddress Remote} (hongoing : answer.nodeId ∈ session.ongoingRequests)
    (hover : answer.isOver = session.isOver) :
    (onRequestSucceeded getPeerDistance options { session with
      requests := session.requests.erase answer.nodeId
      answers := session.answers ++ [answer] } answer.nodeId answer.contacts answer.oldNeighbors
      answer.newNeighbors).1 = session.answered getPeerDistance options answer := by
  unfold onRequestSucceeded DiscoverySession.answered Answer.noCloser Answer.passed
  dsimp only
  rw [if_neg (not_not.mpr hongoing)]
  cases hold : getClosestNeighbor getPeerDistance options answer.oldNeighbors with
  | none =>
    rw [getClosestNeighbor_eq_none_iff] at hold
    simp [hold]
  | some oldClosestNeighbor =>
    have hne : answer.oldNeighbors ≠ [] := fun hnil ↦ by
      rw [getClosestNeighbor_eq_none_iff.mpr hnil] at hold
      cases hold
    have hadded (before : DiscoverySession DhtAddress Remote) (hbefore : before.isOver = session.isOver) :
        addContacts before answer.contacts = { before with
          calls := before.calls ++
            (if answer.isOver = true then [] else answer.contacts).map .addContact } := by
      unfold addContacts
      rw [hbefore, ← hover]
      split_ifs
      · rw [List.map_nil, List.append_nil]
      · rfl
    simp only [hne, or_false]
    rw [hadded]
    · cases getClosestNeighbor getPeerDistance options answer.newNeighbors with
      | none => rfl
      | some newClosestNeighbor =>
        by_cases hle : getPeerDistance options.targetId oldClosestNeighbor.nodeId ≤
            getPeerDistance options.targetId newClosestNeighbor.nodeId
        · simp only [if_pos hle, decide_eq_true hle, if_true]
        · simp only [if_neg hle, decide_eq_false hle, Bool.false_eq_true, if_false, Nat.add_zero]
    · rfl

/-! ### Invariants -/

/-- What holds in every state of a session. -/
structure Books (getPeerDistance : DhtAddress → DhtAddress → Distance)
    (options : DiscoverySessionOptions DhtAddress)
    (session : DiscoverySession DhtAddress Remote) : Prop where
  asked_nodup : session.asked.Nodup
  contacted : ∀ id ∈ session.asked, id ∈ session.contactedPeers
  ongoing_asked : ∀ id ∈ session.ongoingRequests, id ∈ session.asked
  requests_nodup : session.requests.Nodup
  requests_ongoing : ∀ id ∈ session.requests, id ∈ session.ongoingRequests
  length_le : session.ongoingRequests.elements.length ≤ options.parallelism
  rejected_asked : ∀ id ∈ session.rejected, id ∈ session.asked ∧ id ∉ session.requests
  answered : ∀ answer ∈ session.answers,
    answer.nodeId ∈ session.asked ∧ answer.nodeId ∉ session.ongoingRequests
  removed : ∀ id, PeerManagerCall.removeContact id ∈ session.calls → id ∈ session.asked ∧
    id ∉ session.ongoingRequests ∧ ∀ answer ∈ session.answers, answer.nodeId ≠ id
  counted : session.noProgressCounter =
    session.answers.countP (Answer.noCloser getPeerDistance options)
  added : addedContacts session.calls = session.answers.flatMap Answer.passed

/-- When a session may end: no request is outstanding and every nearby contact was contacted, or there
were enough responses without a closer neighbour. -/
def Finished (getPeerDistance : DhtAddress → DhtAddress → Distance)
    (options : DiscoverySessionOptions DhtAddress) (session : DiscoverySession DhtAddress Remote)
    (nearbyContacts : List (Contact DhtAddress Remote)) : Prop :=
  (session.ongoingRequests.elements = [] ∧ session.requests = [] ∧
    ∀ contact ∈ nearbyContacts, contact.nodeId ∈ session.contactedPeers) ∨
  options.noProgressLimit ≤ session.answers.countP (Answer.noCloser getPeerDistance options)

namespace Books

variable {session : DiscoverySession DhtAddress Remote}

theorem create (contactedPeers : OrderedSet DhtAddress) :
    Books getPeerDistance options (Discovery.create Remote contactedPeers) where
  asked_nodup := List.nodup_nil
  contacted := nofun
  ongoing_asked := nofun
  requests_nodup := List.nodup_nil
  requests_ongoing := nofun
  length_le := Nat.zero_le _
  rejected_asked := nofun
  answered := nofun
  removed := nofun
  counted := rfl
  added := rfl

/-- The flags and the number of searches do not matter. -/
theorem with_flags (hbooks : Books getPeerDistance options session) (done aborted : Bool)
    (searches : ℕ) {rejected : List DhtAddress}
    (hrejected : ∀ id ∈ rejected, id ∈ session.asked ∧ id ∉ session.requests) :
    Books getPeerDistance options { session with
      done := done
      aborted := aborted
      rejected := rejected
      searches := searches } :=
  { hbooks with rejected_asked := hrejected }

omit [DecidableEq DhtAddress] in
private theorem nodup_concat {ids : List DhtAddress} {nodeId : DhtAddress} (hnodup : ids.Nodup)
    (hnew : nodeId ∉ ids) : (ids ++ [nodeId]).Nodup := by
  rw [← List.concat_eq_append]
  exact hnodup.concat hnew

/-- A request is sent to a node that was not contacted. -/
theorem fetch (hbooks : Books getPeerDistance options session) {nodeId : DhtAddress}
    (hnew : nodeId ∉ session.contactedPeers)
    (hroom : session.ongoingRequests.elements.length < options.parallelism)
    (hover : session.isOver = false) :
    Books getPeerDistance options (fetchClosestNeighborsFromRemote
      { session with ongoingRequests := session.ongoingRequests.add nodeId } nodeId) := by
  have hasked : nodeId ∉ session.asked := fun hmem ↦ hnew (hbooks.contacted nodeId hmem)
  rw [fetchClosestNeighborsFromRemote_eq nodeId hover]
  have hne {id : DhtAddress} (hmem : id ∈ session.asked) : id ≠ nodeId := fun hsame ↦
    hasked (hsame ▸ hmem)
  have hunsent : nodeId ∉ session.requests := fun hmem ↦
    hasked (hbooks.ongoing_asked nodeId (hbooks.requests_ongoing nodeId hmem))
  have hconcat {id : DhtAddress} {ids : List DhtAddress} : id ∈ ids ++ [nodeId] ↔
      id ∈ ids ∨ id = nodeId := by
    rw [List.mem_append, List.mem_singleton]
  exact {
    asked_nodup := nodup_concat hbooks.asked_nodup hasked
    contacted := fun id hmem ↦ OrderedSet.mem_add.mpr
      ((hconcat.mp hmem).symm.imp_right (hbooks.contacted id))
    ongoing_asked := fun id hmem ↦ hconcat.mpr
      ((OrderedSet.mem_add.mp hmem).symm.imp_left (hbooks.ongoing_asked id))
    requests_nodup := nodup_concat hbooks.requests_nodup hunsent
    requests_ongoing := fun id hmem ↦ OrderedSet.mem_add.mpr
      ((hconcat.mp hmem).symm.imp_right (hbooks.requests_ongoing id))
    length_le := (OrderedSet.length_add_le _ _).trans hroom
    rejected_asked := fun id hmem ↦ by
      obtain ⟨hrejected, hsettled⟩ := hbooks.rejected_asked id hmem
      exact ⟨hconcat.mpr (Or.inl hrejected), fun hadd ↦
        (hconcat.mp hadd).elim hsettled (hne hrejected)⟩
    answered := fun answer hmem ↦ by
      obtain ⟨hanswered, hsettled⟩ := hbooks.answered answer hmem
      refine ⟨hconcat.mpr (Or.inl hanswered), fun hadd ↦ ?_⟩
      exact (OrderedSet.mem_add.mp hadd).elim (hne hanswered) hsettled
    removed := fun id hmem ↦ by
      obtain ⟨hremoved, hsettled, hsilent⟩ := hbooks.removed id hmem
      refine ⟨hconcat.mpr (Or.inl hremoved), fun hadd ↦ ?_, hsilent⟩
      exact (OrderedSet.mem_add.mp hadd).elim (hne hremoved) hsettled
    counted := hbooks.counted
    added := hbooks.added }

/-- The loop of a search asks nodes that were not contacted. -/
theorem askAll {nodes : List (Contact DhtAddress Remote)}
    (hbooks : Books getPeerDistance options session) (hover : session.isOver = false)
    (hnodup : (nodes.map Contact.nodeId).Nodup)
    (hnew : ∀ node ∈ nodes, node.nodeId ∉ session.contactedPeers) :
    Books getPeerDistance options (Discovery.askAll options session nodes) := by
  induction nodes generalizing session with
  | nil => exact hbooks
  | cons node nodes ih =>
    rw [List.map_cons, List.nodup_cons] at hnodup
    unfold Discovery.askAll
    split_ifs with hfull
    · exact hbooks
    · have hfetch := hbooks.fetch (hnew node List.mem_cons_self) (Nat.lt_of_not_le hfull) hover
      rw [fetchClosestNeighborsFromRemote_eq node.nodeId hover] at hfetch ⊢
      refine ih hfetch hover hnodup.2 fun other hother hmem ↦ ?_
      rcases OrderedSet.mem_add.mp hmem with hsame | hmem
      · exact hnodup.1 (hsame ▸ List.mem_map_of_mem hother)
      · exact hnew other (List.mem_cons_of_mem node hother) hmem

theorem findMoreContacts (hbooks : Books getPeerDistance options session)
    (nearbyContacts : List (Contact DhtAddress Remote)) : Books getPeerDistance options
      (Discovery.findMoreContacts getPeerDistance options session nearbyContacts) := by
  have hleast := least_getClosestNodes getPeerDistance options.targetId nearbyContacts
    (uncontactedOptions options session)
  unfold Discovery.findMoreContacts
  split_ifs with hover hdone
  · exact hbooks
  · exact hbooks.with_flags true session.aborted session.searches hbooks.rejected_asked
  · refine hbooks.askAll (Bool.eq_false_iff.mpr hover) hleast.nodup fun node hmem ↦ ?_
    exact (hleast.pool_of_mem node.nodeId (List.mem_map_of_mem hmem)).2

/-- A response settles an ongoing request. -/
theorem after_answer (hbooks : Books getPeerDistance options session)
    {answer : Answer DhtAddress Remote} (hrequest : answer.nodeId ∈ session.requests) :
    Books getPeerDistance options (session.answered getPeerDistance options answer) := by
  have hongoing := hbooks.requests_ongoing answer.nodeId hrequest
  exact {
    asked_nodup := hbooks.asked_nodup
    contacted := hbooks.contacted
    ongoing_asked := fun id hmem ↦ hbooks.ongoing_asked id (OrderedSet.mem_delete.mp hmem).1
    requests_nodup := hbooks.requests_nodup.erase answer.nodeId
    requests_ongoing := fun id hmem ↦ by
      obtain ⟨hne, hmem⟩ := hbooks.requests_nodup.mem_erase_iff.mp hmem
      exact OrderedSet.mem_delete.mpr ⟨hbooks.requests_ongoing id hmem, hne⟩
    length_le := (OrderedSet.length_delete_lt hongoing).le.trans hbooks.length_le
    rejected_asked := fun id hmem ↦ (hbooks.rejected_asked id hmem).imp_right fun hsettled herase ↦
      hsettled (List.mem_of_mem_erase herase)
    answered := fun other hmem ↦ by
      rcases List.mem_append.mp hmem with hmem | hmem
      · obtain ⟨hanswered, hsettled⟩ := hbooks.answered other hmem
        exact ⟨hanswered, fun hdelete ↦ hsettled (OrderedSet.mem_delete.mp hdelete).1⟩
      · rw [List.mem_singleton.mp hmem]
        exact ⟨hbooks.ongoing_asked answer.nodeId hongoing, fun hdelete ↦
          (OrderedSet.mem_delete.mp hdelete).2 rfl⟩
    removed := fun id hmem ↦ by
      have hcall : PeerManagerCall.removeContact id ∈ session.calls :=
        (List.mem_append.mp hmem).resolve_right (by simp)
      obtain ⟨hremoved, hsettled, hsilent⟩ := hbooks.removed id hcall
      refine ⟨hremoved, fun hdelete ↦ hsettled (OrderedSet.mem_delete.mp hdelete).1,
        fun other hother ↦ ?_⟩
      rcases List.mem_append.mp hother with hother | hother
      · exact hsilent other hother
      · rw [List.mem_singleton.mp hother]
        exact fun hsame ↦ hsettled (hsame ▸ hongoing)
    counted := by
      show session.noProgressCounter + _ = _
      rw [DiscoverySession.answered, List.countP_append, List.countP_singleton, hbooks.counted]
    added := by
      show addedContacts (session.calls ++ answer.passed.map .addContact) = _
      rw [addedContacts_append, addedContacts_map, DiscoverySession.answered, List.flatMap_append,
        List.flatMap_singleton, hbooks.added] }

/-- A failure removes a node whose request is ongoing. -/
theorem fail (hbooks : Books getPeerDistance options session) (nodeId : DhtAddress)
    (hrequest : nodeId ∉ session.requests) :
    Books getPeerDistance options (onRequestFailed session nodeId) := by
  unfold onRequestFailed
  by_cases hongoing : nodeId ∉ session.ongoingRequests
  · rw [if_pos hongoing]
    exact hbooks
  rw [if_neg hongoing]
  rw [not_not] at hongoing
  exact {
    asked_nodup := hbooks.asked_nodup
    contacted := hbooks.contacted
    ongoing_asked := fun id hmem ↦ hbooks.ongoing_asked id (OrderedSet.mem_delete.mp hmem).1
    requests_nodup := hbooks.requests_nodup
    requests_ongoing := fun id hmem ↦ OrderedSet.mem_delete.mpr
      ⟨hbooks.requests_ongoing id hmem, fun hsame ↦ hrequest (hsame ▸ hmem)⟩
    length_le := (OrderedSet.length_delete_lt hongoing).le.trans hbooks.length_le
    rejected_asked := hbooks.rejected_asked
    answered := fun answer hmem ↦ by
      obtain ⟨hanswered, hsettled⟩ := hbooks.answered answer hmem
      exact ⟨hanswered, fun hdelete ↦ hsettled (OrderedSet.mem_delete.mp hdelete).1⟩
    removed := fun id hmem ↦ by
      rcases List.mem_append.mp hmem with hmem | hmem
      · obtain ⟨hremoved, hsettled, hsilent⟩ := hbooks.removed id hmem
        exact ⟨hremoved, fun hdelete ↦ hsettled (OrderedSet.mem_delete.mp hdelete).1, hsilent⟩
      · cases List.mem_singleton.mp hmem
        exact ⟨hbooks.ongoing_asked nodeId hongoing,
          fun hdelete ↦ (OrderedSet.mem_delete.mp hdelete).2 rfl,
          fun answer hanswer hsame ↦ (hbooks.answered answer hanswer).2 (hsame ▸ hongoing)⟩
    counted := hbooks.counted
    added := by
      rw [addedContacts_append, hbooks.added]
      exact List.append_nil _ }

/-- The request of a node that was asked is rejected. -/
theorem reject (hbooks : Books getPeerDistance options session) {nodeId : DhtAddress}
    (hasked : nodeId ∈ session.asked) (hsettled : nodeId ∉ session.requests) :
    Books getPeerDistance options { session with rejected := session.rejected ++ [nodeId] } := by
  refine hbooks.with_flags session.done session.aborted session.searches fun id hmem ↦ ?_
  rcases List.mem_append.mp hmem with hmem | hmem
  · exact hbooks.rejected_asked id hmem
  · exact List.mem_singleton.mp hmem ▸ ⟨hasked, hsettled⟩

/-- The promise of a request is settled. -/
theorem settle (hbooks : Books getPeerDistance options session) (nodeId : DhtAddress) :
    Books getPeerDistance options { session with requests := session.requests.erase nodeId } :=
  { hbooks with
    requests_nodup := hbooks.requests_nodup.erase nodeId
    requests_ongoing := fun id hmem ↦ hbooks.requests_ongoing id (List.mem_of_mem_erase hmem)
    rejected_asked := fun id hmem ↦ (hbooks.rejected_asked id hmem).imp_right fun hsettled herase ↦
      hsettled (List.mem_of_mem_erase herase) }

/-- Another session contacts a node. -/
theorem contact (hbooks : Books getPeerDistance options session) (nodeId : DhtAddress) :
    Books getPeerDistance options
      { session with contactedPeers := session.contactedPeers.add nodeId } :=
  { hbooks with
    contacted := fun id hmem ↦ OrderedSet.mem_add.mpr (Or.inr (hbooks.contacted id hmem)) }

/-- A response that arrives, whether its handler throws or not. -/
theorem step_responded (hbooks : Books getPeerDistance options session) {nodeId : DhtAddress}
    {contacts oldNeighbors newNeighbors : List (Contact DhtAddress Remote)}
    {after : DiscoverySession DhtAddress Remote}
    (hstep : Discovery.step getPeerDistance options session
      (.responded nodeId contacts oldNeighbors newNeighbors) = some after) :
    nodeId ∈ session.requests ∧ ∃ rejected searches,
      (∀ id ∈ rejected, id ∈ session.rejected ∨ id = nodeId) ∧
      after = { session.answered getPeerDistance options
          ⟨nodeId, contacts, session.isOver, oldNeighbors, newNeighbors⟩ with
        rejected := rejected
        searches := searches } := by
  simp only [Discovery.step] at hstep
  by_cases hrequest : nodeId ∉ session.requests
  · rw [if_pos hrequest] at hstep
    cases hstep
  rw [if_neg hrequest] at hstep
  rw [not_not] at hrequest
  refine ⟨hrequest, ?_⟩
  let answer : Answer DhtAddress Remote :=
    ⟨nodeId, contacts, session.isOver, oldNeighbors, newNeighbors⟩
  have heq := @onRequestSucceeded_eq _ _ _ _ _ getPeerDistance options session answer
    (hbooks.requests_ongoing nodeId hrequest) rfl
  split at hstep
  · rename_i thrown hthrown
    rw [hthrown] at heq
    have hsame : thrown = session.answered getPeerDistance options answer := heq
    rw [hsame] at hstep
    cases hstep
    refine ⟨_, _, fun id hmem ↦ ?_, rfl⟩
    exact (List.mem_append.mp hmem).imp_right List.mem_singleton.mp
  · rename_i returned hreturned
    rw [hreturned] at heq
    have hsame : returned = session.answered getPeerDistance options answer := heq
    rw [hsame] at hstep
    cases hstep
    exact ⟨_, _, fun _ ↦ Or.inl, rfl⟩

/-- Every event keeps the books. -/
theorem step (hbooks : Books getPeerDistance options session) {event : Event DhtAddress Remote}
    {after : DiscoverySession DhtAddress Remote}
    (hstep : Discovery.step getPeerDistance options session event = some after) :
    Books getPeerDistance options after := by
  cases event with
  | responded nodeId contacts oldNeighbors newNeighbors =>
    obtain ⟨hrequest, rejected, searches, hmem, rfl⟩ := hbooks.step_responded hstep
    refine (hbooks.after_answer hrequest).with_flags _ _ _ fun id hid ↦ ?_
    rcases hmem id hid with hold | rfl
    · exact (hbooks.after_answer hrequest).rejected_asked id hold
    · exact ⟨hbooks.ongoing_asked id (hbooks.requests_ongoing id hrequest),
        hbooks.requests_nodup.not_mem_erase⟩
  | failed nodeId =>
    simp only [Discovery.step] at hstep
    by_cases hrequest : nodeId ∉ session.requests
    · rw [if_pos hrequest] at hstep
      cases hstep
    rw [if_neg hrequest] at hstep
    rw [not_not] at hrequest
    cases hstep
    exact (hbooks.settle nodeId).reject
      (hbooks.ongoing_asked nodeId (hbooks.requests_ongoing nodeId hrequest))
      hbooks.requests_nodup.not_mem_erase
  | caught nodeId =>
    simp only [Discovery.step] at hstep
    by_cases hrejected : nodeId ∉ session.rejected
    · rw [if_pos hrejected] at hstep
      cases hstep
    rw [if_neg hrejected] at hstep
    rw [not_not] at hrejected
    cases hstep
    have hfail := hbooks.fail nodeId (hbooks.rejected_asked nodeId hrejected).2
    refine hfail.with_flags _ _ _ fun id hmem ↦ hfail.rejected_asked id ?_
    rw [(onRequestFailed_frame session nodeId).1]
    exact List.mem_of_mem_erase hmem
  | searched nearbyContacts =>
    obtain ⟨searches, rfl⟩ := step_searched hstep
    have hfind := hbooks.findMoreContacts nearbyContacts
    exact hfind.with_flags _ _ _ hfind.rejected_asked
  | contacted nodeId =>
    cases hstep
    exact hbooks.contact nodeId
  | aborted =>
    cases hstep
    exact hbooks.with_flags _ _ _ hbooks.rejected_asked

/-- The books of every state of a run. -/
theorem of_reachable (hreachable : Transition.Reachable (Discovery.step getPeerDistance options)
    (fun _ _ ↦ True) (fun start ↦ ∃ contactedPeers, start = Discovery.create Remote contactedPeers)
    session) : Books getPeerDistance options session := by
  refine hreachable.invariant ?_ fun _ _ _ _ hbooks _ hstep ↦ hbooks.step hstep
  rintro _ ⟨contactedPeers, rfl⟩
  exact create contactedPeers

/-- Only a search asks nodes or ends a session. -/
theorem frame (hbooks : Books getPeerDistance options session) {event : Event DhtAddress Remote}
    {after : DiscoverySession DhtAddress Remote}
    (hstep : Discovery.step getPeerDistance options session event = some after)
    (hevent : ∀ nearbyContacts, event ≠ .searched nearbyContacts) :
    after.asked = session.asked ∧ after.done = session.done := by
  cases event with
  | responded nodeId contacts oldNeighbors newNeighbors =>
    obtain ⟨_, _, _, _, rfl⟩ := hbooks.step_responded hstep
    exact ⟨rfl, rfl⟩
  | failed nodeId =>
    simp only [Discovery.step] at hstep
    split_ifs at hstep
    cases hstep
    exact ⟨rfl, rfl⟩
  | caught nodeId =>
    simp only [Discovery.step] at hstep
    split_ifs at hstep
    cases hstep
    exact (onRequestFailed_frame session nodeId).2
  | searched nearbyContacts => exact absurd rfl (hevent nearbyContacts)
  | contacted nodeId =>
    cases hstep
    exact ⟨rfl, rfl⟩
  | aborted =>
    cases hstep
    exact ⟨rfl, rfl⟩

/-- A search that finds nothing to ask knows no contact that was not contacted. -/
theorem contacted_of_uncontacted_eq_nil {nearbyContacts : List (Contact DhtAddress Remote)}
    (hnil : uncontacted getPeerDistance options session nearbyContacts = []) :
    ∀ contact ∈ nearbyContacts, contact.nodeId ∈ session.contactedPeers := by
  intro contact hmem
  by_contra hnew
  have hleast := least_getClosestNodes getPeerDistance options.targetId nearbyContacts
    (uncontactedOptions options session)
  rw [show getClosestNodes _ _ _ _ = [] from hnil] at hleast
  have hfull := (hleast.left_out contact.nodeId ⟨List.mem_map_of_mem hmem, hnew⟩
    List.not_mem_nil).1
  exact options.parallelism_ne_zero hfull.symm

/-- What a search may do. -/
theorem search (hbooks : Books getPeerDistance options session)
    (nearbyContacts : List (Contact DhtAddress Remote)) :
    (∀ id ∈ (Discovery.findMoreContacts getPeerDistance options session nearbyContacts).asked,
      id ∈ session.asked ∨ id ∉ session.contactedPeers) ∧
    (session.done = false →
      (Discovery.findMoreContacts getPeerDistance options session nearbyContacts).done = true →
      Finished getPeerDistance options session nearbyContacts) := by
  have hleast := least_getClosestNodes getPeerDistance options.targetId nearbyContacts
    (uncontactedOptions options session)
  unfold Discovery.findMoreContacts
  split_ifs with hover hdone
  · exact ⟨fun _ ↦ Or.inl, fun hopen hdone ↦ absurd hdone (Bool.eq_false_iff.mp hopen)⟩
  · refine ⟨fun _ ↦ Or.inl, fun _ _ ↦ ?_⟩
    rcases hdone with ⟨hnil, hidle⟩ | hlimit
    · refine Or.inl ⟨hidle, List.eq_nil_iff_forall_not_mem.mpr fun id hmem ↦ ?_,
        contacted_of_uncontacted_eq_nil hnil⟩
      have hongoing := OrderedSet.mem_def.mp (hbooks.requests_ongoing id hmem)
      rw [hidle] at hongoing
      exact List.not_mem_nil hongoing
    · exact Or.inr (hbooks.counted ▸ hlimit)
  · obtain ⟨hasked, hsame⟩ := @askAll_asked _ _ _ options session
      (uncontacted getPeerDistance options session nearbyContacts) (Bool.eq_false_iff.mpr hover)
    refine ⟨fun id hmem ↦ (hasked id hmem).imp_right fun hmem ↦ (hleast.pool_of_mem id hmem).2,
      fun hopen hdone ↦ ?_⟩
    rw [hsame, hopen] at hdone
    cases hdone

end Books

/-! ### Results -/

/-- The contacts of a response that have to be passed on: all, until the session is over. -/
def Answer.due (answer : Answer DhtAddress Remote) : List (Contact DhtAddress Remote) :=
  if answer.isOver = true then [] else answer.contacts

/-- What is expected of a session, by what it did and by what it may do next. -/
structure Sound (getPeerDistance : DhtAddress → DhtAddress → Distance)
    (options : DiscoverySessionOptions DhtAddress)
    (session : DiscoverySession DhtAddress Remote) : Prop where
  asked_once : session.asked.Nodup
  asks_uncontacted : ∀ event after, step getPeerDistance options session event = some after →
    ∀ id ∈ after.asked, id ∈ session.asked ∨ id ∉ session.contactedPeers
  outstanding_le : session.requests.length ≤ options.parallelism
  adds_contacts : addedContacts session.calls = session.answers.flatMap Answer.due
  keeps_answered : ∀ answer ∈ session.answers,
    PeerManagerCall.removeContact answer.nodeId ∉ session.calls
  ends_finished : ∀ event after, step getPeerDistance options session event = some after →
    session.done = false → after.done = true →
    ∃ nearbyContacts, event = .searched nearbyContacts ∧
      Finished getPeerDistance options session nearbyContacts

omit [DecidableEq DhtAddress] in
/-- A response that comes when there is no neighbour is lost, and no other one is. -/
theorem passed_eq_due_iff {answer : Answer DhtAddress Remote} :
    answer.passed = answer.due ↔
      (answer.isOver = false → answer.contacts ≠ [] → answer.oldNeighbors ≠ []) := by
  unfold Answer.passed Answer.due
  cases answer.isOver with
  | true => simp
  | false =>
    by_cases hnone : answer.oldNeighbors = []
    · simp [hnone, eq_comm]
    · simp [hnone]

omit [DecidableEq DhtAddress] in
theorem length_passed_le (answer : Answer DhtAddress Remote) :
    answer.passed.length ≤ answer.due.length := by
  unfold Answer.passed Answer.due
  cases answer.isOver with
  | true => simp
  | false =>
    by_cases hnone : answer.oldNeighbors = []
    · simp [hnone]
    · simp [hnone]

omit [DecidableEq DhtAddress] in
theorem length_flatMap_passed_le (answers : List (Answer DhtAddress Remote)) :
    (answers.flatMap Answer.passed).length ≤ (answers.flatMap Answer.due).length := by
  induction answers with
  | nil => exact le_refl _
  | cons answer answers ih =>
    rw [List.flatMap_cons, List.flatMap_cons, List.length_append, List.length_append]
    exact Nat.add_le_add (length_passed_le answer) ih

omit [DecidableEq DhtAddress] in
/-- Nothing is lost if and only if no single response is. -/
theorem flatMap_passed_eq_iff {answers : List (Answer DhtAddress Remote)} :
    answers.flatMap Answer.passed = answers.flatMap Answer.due ↔
      ∀ answer ∈ answers, answer.passed = answer.due := by
  induction answers with
  | nil => simp
  | cons answer answers ih =>
    rw [List.forall_mem_cons, ← ih, List.flatMap_cons, List.flatMap_cons]
    constructor
    · intro hsame
      have hlength := congrArg List.length hsame
      have hhead := length_passed_le answer
      have htail := length_flatMap_passed_le answers
      rw [List.length_append, List.length_append] at hlength
      exact List.append_inj hsame (by omega)
    · rintro ⟨hhead, htail⟩
      rw [hhead, htail]

/-- In every state of every run, a session is sound if and only if every response with contacts that
came before the session was over found a neighbour. -/
theorem sound_iff_of_reachable (session : DiscoverySession DhtAddress Remote)
    (hreachable : Transition.Reachable (step getPeerDistance options) (fun _ _ ↦ True)
      (fun start ↦ ∃ contactedPeers, start = create Remote contactedPeers) session) :
    Sound getPeerDistance options session ↔ ∀ answer ∈ session.answers,
      answer.isOver = false → answer.contacts ≠ [] → answer.oldNeighbors ≠ [] := by
  have hbooks := Books.of_reachable hreachable
  have hiff : addedContacts session.calls = session.answers.flatMap Answer.due ↔
      ∀ answer ∈ session.answers,
        answer.isOver = false → answer.contacts ≠ [] → answer.oldNeighbors ≠ [] := by
    rw [hbooks.added, flatMap_passed_eq_iff]
    exact forall₂_congr fun _ _ ↦ passed_eq_due_iff
  refine ⟨fun hsound ↦ hiff.mp hsound.adds_contacts, fun hfound ↦ ?_⟩
  exact {
    asked_once := hbooks.asked_nodup
    asks_uncontacted := fun event after hstep id hmem ↦ by
      by_cases hevent : ∃ nearbyContacts, event = .searched nearbyContacts
      · obtain ⟨nearbyContacts, rfl⟩ := hevent
        obtain ⟨_, rfl⟩ := step_searched hstep
        exact (hbooks.search nearbyContacts).1 id hmem
      · rw [(hbooks.frame hstep (not_exists.mp hevent)).1] at hmem
        exact Or.inl hmem
    outstanding_le :=
      (List.subperm_of_subset hbooks.requests_nodup hbooks.requests_ongoing).length_le.trans hbooks.length_le
    adds_contacts := hiff.mpr hfound
    keeps_answered := fun answer hmem hcall ↦ (hbooks.removed _ hcall).2.2 answer hmem rfl
    ends_finished := fun event after hstep hopen hdone ↦ by
      by_cases hevent : ∃ nearbyContacts, event = .searched nearbyContacts
      · obtain ⟨nearbyContacts, rfl⟩ := hevent
        obtain ⟨_, rfl⟩ := step_searched hstep
        exact ⟨nearbyContacts, rfl, (hbooks.search nearbyContacts).2 hopen hdone⟩
      · rw [(hbooks.frame hstep (not_exists.mp hevent)).2, hopen] at hdone
        cases hdone }

/-! ### A response when there is no neighbour -/

/-- The distance of two numbers. -/
def sampleDistance (first second : ℕ) : ℕ := first ^^^ second

/-- A session that looks for the number 4, and asks two nodes at a time. -/
def sampleOptions : DiscoverySessionOptions ℕ := ⟨4, 2, 3, by decide⟩

/-- The node with a number. -/
def sampleNode (nodeId : ℕ) : Contact ℕ Unit := ⟨nodeId, ()⟩

/-- A session in which one node was asked, and tells another node. -/
def sampleRun (neighbors : List (Contact ℕ Unit)) : Option (DiscoverySession ℕ Unit) :=
  Transition.run (step sampleDistance sampleOptions) (create Unit .empty)
    [.searched [sampleNode 1], .responded 1 [sampleNode 2] neighbors neighbors]

theorem reachable_sampleRun {neighbors : List (Contact ℕ Unit)} {session : DiscoverySession ℕ Unit}
    (hrun : sampleRun neighbors = some session) :
    Transition.Reachable (step sampleDistance sampleOptions) (fun _ _ ↦ True)
      (fun start ↦ ∃ contactedPeers, start = create Unit contactedPeers) session :=
  .of_run _ (fun _ _ _ ↦ trivial) (.start ⟨_, rfl⟩) hrun

/-- With a neighbour the response is passed on. -/
theorem sound_iff_of_reachable_neighbor :
    ∃ session, sampleRun [sampleNode 1] = some session ∧
      Sound sampleDistance sampleOptions session := by
  have hanswers : (sampleRun [sampleNode 1]).map (fun session ↦ session.answers.all fun answer ↦
      !answer.oldNeighbors.isEmpty) = some true := by decide
  obtain ⟨session, hrun, hall⟩ := Option.map_eq_some_iff.mp hanswers
  refine ⟨session, hrun, (sound_iff_of_reachable session (reachable_sampleRun hrun)).mpr ?_⟩
  intro answer hmem _ _ hnil
  have hsome := List.all_eq_true.mp hall answer hmem
  rw [hnil] at hsome
  cases hsome

/-- Without a neighbour a response is lost: the contacts come before the session is over, and are not
passed on. -/
theorem response_without_neighbors_lost :
    ∃ session, Transition.Reachable (step sampleDistance sampleOptions) (fun _ _ ↦ True)
        (fun start ↦ ∃ contactedPeers, start = create Unit contactedPeers) session ∧
      session.answers = [⟨1, [sampleNode 2], false, [], []⟩] ∧ session.calls = [] ∧
      ¬Sound sampleDistance sampleOptions session := by
  have hbooks : (sampleRun []).map (fun session ↦ (session.answers, session.calls)) =
      some ([⟨1, [sampleNode 2], false, [], []⟩], []) := by rfl
  obtain ⟨session, hrun, hsame⟩ := Option.map_eq_some_iff.mp hbooks
  obtain ⟨hanswers, hcalls⟩ := Prod.mk.inj hsame
  refine ⟨session, reachable_sampleRun hrun, hanswers, hcalls, fun hsound ↦ ?_⟩
  have hadded := hsound.adds_contacts
  rw [hanswers, hcalls] at hadded
  exact List.cons_ne_nil _ _ hadded.symm

end PomboStorageNode.Dht.Discovery
