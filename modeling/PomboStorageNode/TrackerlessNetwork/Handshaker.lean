import Mathlib.Logic.Function.Basic
import PomboStorageNode.TrackerlessNetwork.NodeList
import PomboStorageNode.Library.Transition

/-!
# Handshakes and interleaving

`HandshakeRpcLocal.ts`, `Handshaker.ts` and `HandshakeRpcRemote.ts`: a node becomes the neighbour of
another one by a handshake. A full node that accepts a handshake picks one of its neighbours and
asks it to interleave, that is to shake hands with the requester and to give up the link to the full
node in exchange.

The network is any number of nodes, with the handshakes and interleave requests that were made so
far. A step is the stretch of code up to an `await`, at the caller or at the node that is called;
an RPC may fail at its caller at any time, whether or not the node that is called handles it.

`CostsNoLink` says that a link is given up only for a handshake that was accepted. The node that is
asked to interleave does not look at the answer to its handshake, which is a value also when the RPC
fails, and gives up the link in any case (`link_lost_after_timeout`).
`costsNoLink_of_interleavesAccepted` holds in the runs in which the handshakes made for an
interleave request do not fail and are not rejected.
-/

set_option autoImplicit false

namespace PomboStorageNode.TrackerlessNetwork.Handshaker

open Library

/-! ### A node -/

/-- The fields of `StreamPartHandshakeRequest` that are read. -/
structure HandshakeRequest (DhtAddress : Type*) where
  neighborNodeIds : List DhtAddress
  interleaveNodeId : Option DhtAddress
  deriving DecidableEq

/-- `HandshakeResponse`. -/
structure HandshakeResponse (DhtAddress : Type*) where
  accepted : Bool
  interleaveTarget : Option DhtAddress
  deriving DecidableEq

/-- What the handshaker of a node reads and changes. -/
structure Node (DhtAddress : Type*) where
  neighbors : NodeList DhtAddress
  ongoingHandshakes : OrderedSet DhtAddress
  ongoingInterleaves : OrderedSet DhtAddress
  maxNeighborCount : ℕ

namespace Node

variable {DhtAddress : Type*} [DecidableEq DhtAddress]

/-- `acceptHandshake`. -/
def acceptHandshake (node : Node DhtAddress) (requester : DhtAddress) :
    Node DhtAddress × HandshakeResponse DhtAddress :=
  ({ node with neighbors := node.neighbors.add requester }, ⟨true, none⟩)

/-- `rejectHandshake`. -/
def rejectHandshake (node : Node DhtAddress) : Node DhtAddress × HandshakeResponse DhtAddress :=
  (node, ⟨false, none⟩)

/-- `acceptHandshakeWithInterleaving`; the interleave request goes to the target of the response. -/
def acceptHandshakeWithInterleaving (node : Node DhtAddress) (request : HandshakeRequest DhtAddress)
    (requester : DhtAddress) : Node DhtAddress × HandshakeResponse DhtAddress :=
  let exclude := request.neighborNodeIds ++ node.ongoingInterleaves.elements ++ [requester] ++
    request.interleaveNodeId.toList
  let last := node.neighbors.getLast exclude
  ({ node with
      ongoingInterleaves := match last with
        | some nodeId => node.ongoingInterleaves.add nodeId
        | none => node.ongoingInterleaves
      neighbors := node.neighbors.add requester }, ⟨true, last⟩)

/-- The first condition under which `handleRequest` accepts: the node knows the sender, or it has
room. -/
def acceptsDirectly (node : Node DhtAddress) (sender : DhtAddress) : Bool :=
  node.neighbors.has sender || decide (sender ∈ node.ongoingHandshakes) ||
    decide (node.neighbors.size [] + node.ongoingHandshakes.elements.length <
      node.maxNeighborCount)

/-- The condition under which `handleRequest` accepts with interleaving: two neighbours are left
whatever becomes of the ongoing interleaves. -/
def acceptsInterleaving (node : Node DhtAddress) (request : HandshakeRequest DhtAddress) : Bool :=
  decide (node.ongoingInterleaves.elements.length + 2 ≤
    node.neighbors.size request.interleaveNodeId.toList) &&
  decide (node.neighbors.size [] ≤ node.maxNeighborCount)

/-- `handleRequest`. -/
def handleRequest (node : Node DhtAddress) (request : HandshakeRequest DhtAddress)
    (sender : DhtAddress) : Node DhtAddress × HandshakeResponse DhtAddress :=
  if sender ∈ node.ongoingInterleaves then node.rejectHandshake
  else if node.acceptsDirectly sender then node.acceptHandshake sender
  else if node.acceptsInterleaving request then
    node.acceptHandshakeWithInterleaving request sender
  else node.rejectHandshake

end Node

/-! ### The network -/

/-- The function that awaits a handshake: `handshakeWithTarget`, the `handshakeWithInterleaving`
that it calls with the target of the response, and the `handshakeWithInterleaving` that is called
for an interleave request. -/
inductive Purpose (DhtAddress : Type*)
  | withTarget
  | afterTarget (targetNodeId : DhtAddress)
  | forInterleave (request : ℕ)
  deriving DecidableEq

/-- A handshake: what the node that is called answered, what the caller got, and whether the
function that called `handshakeWithInterleaving` has gone on behind it. -/
structure Handshake (DhtAddress : Type*) where
  caller : DhtAddress
  target : DhtAddress
  request : HandshakeRequest DhtAddress
  purpose : Purpose DhtAddress
  response : Option (HandshakeResponse DhtAddress)
  result : Option (HandshakeResponse DhtAddress)
  continued : Bool
  deriving DecidableEq

/-- An interleave request: the node that sends it, the neighbour it picked and the requester; the
handshake that was made for it, its answer, and whether the sender has gone on behind it. -/
structure Interleave (DhtAddress : Type*) where
  sender : DhtAddress
  receiver : DhtAddress
  originator : DhtAddress
  handshake : Option ℕ
  accepted : Option Bool
  ended : Bool
  deriving DecidableEq

/-- The nodes, and all handshakes and interleave requests so far. -/
structure Network (DhtAddress : Type*) where
  nodes : DhtAddress → Node DhtAddress
  handshakes : List (Handshake DhtAddress)
  interleaves : List (Interleave DhtAddress)

variable {DhtAddress : Type*} [DecidableEq DhtAddress]

/-- The neighbours of a node. -/
def Network.neighborIds (network : Network DhtAddress) (nodeId : DhtAddress) : List DhtAddress :=
  (network.nodes nodeId).neighbors.getIds

/-- A change of one node. -/
def Network.modifyNode (network : Network DhtAddress) (nodeId : DhtAddress)
    (change : Node DhtAddress → Node DhtAddress) : Network DhtAddress :=
  { network with nodes := Function.update network.nodes nodeId (change (network.nodes nodeId)) }

/-- The beginning of `handshakeWithTarget` and of `handshakeWithInterleaving`. -/
def Network.startHandshake (network : Network DhtAddress) (caller target : DhtAddress)
    (interleaveNodeId : Option DhtAddress) (purpose : Purpose DhtAddress) : Network DhtAddress :=
  let marked := network.modifyNode caller fun node ↦
    { node with ongoingHandshakes := node.ongoingHandshakes.add target }
  { marked with
    handshakes := marked.handshakes ++
      [⟨caller, target, ⟨network.neighborIds caller, interleaveNodeId⟩, purpose, none, none,
        false⟩] }

/-- A handshake request is handled by the node that is called. -/
def Network.handleHandshake (network : Network DhtAddress) (call : ℕ)
    (handshake : Handshake DhtAddress) : Network DhtAddress :=
  let handled := (network.nodes handshake.target).handleRequest handshake.request handshake.caller
  { nodes := Function.update network.nodes handshake.target handled.1
    handshakes := network.handshakes.set call { handshake with response := some handled.2 }
    interleaves := network.interleaves ++ handled.2.interleaveTarget.toList.map fun nodeId ↦
      ⟨handshake.target, nodeId, handshake.caller, none, none, false⟩ }

/-- The caller of a handshake goes on with what `HandshakeRpcRemote.handshake` returned. -/
def Network.returnHandshake (network : Network DhtAddress) (call : ℕ)
    (handshake : Handshake DhtAddress) (result : HandshakeResponse DhtAddress) :
    Network DhtAddress :=
  let returned := { network with
    handshakes := network.handshakes.set call { handshake with result := some result } }
  let added := returned.modifyNode handshake.caller fun node ↦
    if result.accepted then { node with neighbors := node.neighbors.add handshake.target }
    else node
  match handshake.purpose, result.interleaveTarget with
  | .withTarget, some interleaveTarget =>
    added.startHandshake handshake.caller interleaveTarget (some handshake.target)
      (.afterTarget handshake.target)
  | _, _ =>
    added.modifyNode handshake.caller fun node ↦
      { node with ongoingHandshakes := node.ongoingHandshakes.delete handshake.target }

/-- The function that called `handshakeWithInterleaving` goes on behind it. In `interleaveRequest`
the link to the sender is given up; its `catch` is never reached, since no call before it throws. -/
def Network.continueHandshake (network : Network DhtAddress) (call : ℕ)
    (handshake : Handshake DhtAddress) : Option (Network DhtAddress) :=
  let continued := { network with
    handshakes := network.handshakes.set call { handshake with continued := true } }
  match handshake.purpose with
  | .withTarget => none
  | .afterTarget targetNodeId =>
    some (continued.modifyNode handshake.caller fun node ↦
      { node with ongoingHandshakes := node.ongoingHandshakes.delete targetNodeId })
  | .forInterleave request =>
    continued.interleaves[request]?.map fun interleave ↦
      let removed := continued.modifyNode handshake.caller fun node ↦
        { node with neighbors := node.neighbors.remove interleave.sender }
      { removed with
        interleaves := removed.interleaves.set request { interleave with accepted := some true } }

/-- An interleave request is handled: `interleaveRequest` up to its `await`. -/
def Network.handleInterleave (network : Network DhtAddress) (request : ℕ)
    (interleave : Interleave DhtAddress) : Network DhtAddress :=
  let marked := { network with
    interleaves := network.interleaves.set request
      { interleave with handshake := some network.handshakes.length } }
  marked.startHandshake interleave.receiver interleave.originator (some interleave.sender)
    (.forInterleave request)

/-- The sender of an interleave request goes on with what `HandshakeRpcRemote.interleaveRequest`
returned. -/
def Network.returnInterleave (network : Network DhtAddress) (request : ℕ)
    (interleave : Interleave DhtAddress) (accepted : Bool) : Network DhtAddress :=
  let returned := { network with
    interleaves := network.interleaves.set request { interleave with ended := true } }
  returned.modifyNode interleave.sender fun node ↦
    { node with
      neighbors :=
        if accepted then node.neighbors.remove interleave.receiver else node.neighbors
      ongoingInterleaves := node.ongoingInterleaves.delete interleave.receiver }

/-- What can happen. An RPC that fails returns `accepted: false` at its caller. -/
inductive Event (DhtAddress : Type*)
  | handshakeWithTarget (caller target : DhtAddress)
  | handleHandshake (call : ℕ)
  | handshakeReturns (call : ℕ)
  | handshakeFails (call : ℕ)
  | handshakeContinues (call : ℕ)
  | handleInterleave (request : ℕ)
  | interleaveReturns (request : ℕ)
  | interleaveFails (request : ℕ)
  deriving DecidableEq

/-- One step of the network. A request is handled at most once, and every function goes on once
behind each of its `await`s. -/
def step (network : Network DhtAddress) : Event DhtAddress → Option (Network DhtAddress)
  | .handshakeWithTarget caller target =>
    some (network.startHandshake caller target none .withTarget)
  | .handleHandshake call =>
    network.handshakes[call]?.bind fun handshake ↦
      if handshake.response = none then some (network.handleHandshake call handshake) else none
  | .handshakeReturns call =>
    network.handshakes[call]?.bind fun handshake ↦ handshake.response.bind fun response ↦
      if handshake.result = none then some (network.returnHandshake call handshake response)
      else none
  | .handshakeFails call =>
    network.handshakes[call]?.bind fun handshake ↦
      if handshake.result = none then
        some (network.returnHandshake call handshake ⟨false, none⟩)
      else none
  | .handshakeContinues call =>
    network.handshakes[call]?.bind fun handshake ↦
      if handshake.result ≠ none ∧ handshake.continued = false then
        network.continueHandshake call handshake
      else none
  | .handleInterleave request =>
    network.interleaves[request]?.bind fun interleave ↦
      if interleave.handshake = none then some (network.handleInterleave request interleave)
      else none
  | .interleaveReturns request =>
    network.interleaves[request]?.bind fun interleave ↦ interleave.accepted.bind fun accepted ↦
      if interleave.ended = false then some (network.returnInterleave request interleave accepted)
      else none
  | .interleaveFails request =>
    network.interleaves[request]?.bind fun interleave ↦
      if interleave.ended = false then some (network.returnInterleave request interleave false)
      else none

/-! ### The promise -/

/-- The handshake that the receiver of an interleave request made with the requester was answered
with `accepted: true`. -/
def HandshakeAccepted (handshakes : List (Handshake DhtAddress))
    (interleave : Interleave DhtAddress) : Prop :=
  ∃ (call : ℕ) (handshake : Handshake DhtAddress) (result : HandshakeResponse DhtAddress),
    interleave.handshake = some call ∧ handshakes[call]? = some handshake ∧
    handshake.caller = interleave.receiver ∧ handshake.target = interleave.originator ∧
    handshake.result = some result ∧ result.accepted = true

/-- Whether an event ends an interleave request at one of its two nodes, and that node gives up the
other one. -/
def GivesUp (interleave : Interleave DhtAddress) (request : ℕ) (event : Event DhtAddress)
    (nodeId neighbor : DhtAddress) : Prop :=
  (∃ call, interleave.handshake = some call ∧ event = .handshakeContinues call ∧
    nodeId = interleave.receiver ∧ neighbor = interleave.sender) ∨
  (event = .interleaveReturns request ∧ nodeId = interleave.sender ∧
    neighbor = interleave.receiver)

/-- Interleaving costs no link: an interleave request is answered with `accepted: true` only if the
handshake of its receiver was accepted, and a neighbour is removed only at the end of such a
request, by its receiver or by its sender. -/
structure CostsNoLink (network : Network DhtAddress) : Prop where
  accepted : ∀ (request : ℕ) (interleave : Interleave DhtAddress),
    network.interleaves[request]? = some interleave → interleave.accepted = some true →
    HandshakeAccepted network.handshakes interleave
  removed : ∀ event after, step network event = some after →
    ∀ nodeId, ∀ neighbor ∈ network.neighborIds nodeId, neighbor ∉ after.neighborIds nodeId →
      ∃ (request : ℕ) (interleave : Interleave DhtAddress),
        network.interleaves[request]? = some interleave ∧
        GivesUp interleave request event nodeId neighbor ∧
        HandshakeAccepted network.handshakes interleave

/-- A handshake that was made for an interleave request. -/
def Handshake.isForInterleave (handshake : Handshake DhtAddress) : Bool :=
  match handshake.purpose with
  | .forInterleave _ => true
  | _ => false

/-- The handshakes that are made for an interleave request do not fail, and the requester accepts
them when it handles them. -/
def InterleavesAccepted (network : Network DhtAddress) : Event DhtAddress → Prop
  | .handshakeFails call => ∀ handshake, network.handshakes[call]? = some handshake →
      handshake.isForInterleave = false
  | .handleHandshake call => ∀ handshake, network.handshakes[call]? = some handshake →
      handshake.isForInterleave = true →
      let target := network.nodes handshake.target
      handshake.caller ∉ target.ongoingInterleaves ∧
        (target.acceptsDirectly handshake.caller = true ∨
          target.acceptsInterleaving handshake.request = true)
  | _ => True

/-! ### The invariant of the calls -/

/-- What a handshake that was made for an interleave request was answered with, and what its caller
got, is an acceptance. -/
def AnswersAccepted (handshake : Handshake DhtAddress) : Prop :=
  handshake.isForInterleave = true →
    (∀ response, handshake.response = some response → response.accepted = true) ∧
    ∀ result, handshake.result = some result → result.accepted = true

/-- A handshake that was made for an interleave request is the one that the request knows, from its
receiver to the requester. -/
def Linked (interleaves : List (Interleave DhtAddress)) (call : ℕ)
    (handshake : Handshake DhtAddress) : Prop :=
  ∀ request, handshake.purpose = .forInterleave request →
    ∃ interleave, interleaves[request]? = some interleave ∧ interleave.handshake = some call ∧
      handshake.caller = interleave.receiver ∧ handshake.target = interleave.originator

/-- What holds of the calls in every state of a run that meets the condition. -/
structure Invariant (handshakes : List (Handshake DhtAddress))
    (interleaves : List (Interleave DhtAddress)) : Prop where
  answers : ∀ (call : ℕ) (handshake : Handshake DhtAddress),
    handshakes[call]? = some handshake → AnswersAccepted handshake
  linked : ∀ (call : ℕ) (handshake : Handshake DhtAddress),
    handshakes[call]? = some handshake → Linked interleaves call handshake
  accepted : ∀ (request : ℕ) (interleave : Interleave DhtAddress),
    interleaves[request]? = some interleave → interleave.accepted = some true →
    HandshakeAccepted handshakes interleave

/-- What holds of all elements of a list and of a new element holds when an element is replaced. -/
private theorem forall_getElem?_set {Element : Type*} {list : List Element} {position : ℕ}
    {new : Element} {property : ℕ → Element → Prop}
    (hold : ∀ (index : ℕ) (element : Element), list[index]? = some element →
      property index element) (hnew : property position new) :
    ∀ (index : ℕ) (element : Element), (list.set position new)[index]? = some element →
      property index element := by
  intro index element helement
  rw [List.getElem?_set] at helement
  split_ifs at helement with heq hlt
  · rw [Option.some.injEq] at helement
    exact heq ▸ helement ▸ hnew
  · exact hold index element helement

/-- What holds of all elements of a list and of the ones that are added holds of all. -/
private theorem forall_getElem?_append {Element : Type*} {list added : List Element}
    {property : ℕ → Element → Prop}
    (hold : ∀ (index : ℕ) (element : Element), list[index]? = some element →
      property index element)
    (hadded : ∀ (index : ℕ) (element : Element), added[index]? = some element →
      property (list.length + index) element) :
    ∀ (index : ℕ) (element : Element), (list ++ added)[index]? = some element →
      property index element := by
  intro index element helement
  rw [List.getElem?_append] at helement
  split_ifs at helement with hlt
  · exact hold index element helement
  · have hnew := hadded (index - list.length) element helement
    rwa [Nat.add_sub_cancel' (Nat.le_of_not_lt hlt)] at hnew

omit [DecidableEq DhtAddress] in
/-- An accepted handshake stays so when its caller, its target and its result are kept. -/
theorem HandshakeAccepted.mono {before after : List (Handshake DhtAddress)}
    {interleave : Interleave DhtAddress} (haccepted : HandshakeAccepted before interleave)
    (hkeeps : ∀ (call : ℕ) (handshake : Handshake DhtAddress), before[call]? = some handshake →
      ∃ later, after[call]? = some later ∧ later.caller = handshake.caller ∧
        later.target = handshake.target ∧
        ∀ result, handshake.result = some result → later.result = some result) :
    HandshakeAccepted after interleave := by
  obtain ⟨call, handshake, result, hcall, hget, hcaller, htarget, hresult, htrue⟩ := haccepted
  obtain ⟨later, hlater, hsameCaller, hsameTarget, hsameResult⟩ := hkeeps call handshake hget
  exact ⟨call, later, result, hcall, hlater, hsameCaller.trans hcaller,
    hsameTarget.trans htarget, hsameResult result hresult, htrue⟩

omit [DecidableEq DhtAddress] in
/-- A handshake goes on: its caller, target and purpose stay, and its result if it has one. -/
theorem Invariant.set_handshake {handshakes : List (Handshake DhtAddress)}
    {interleaves : List (Interleave DhtAddress)} (hinv : Invariant handshakes interleaves)
    {call : ℕ} {handshake : Handshake DhtAddress} (later : Handshake DhtAddress)
    (hget : handshakes[call]? = some handshake) (hcaller : later.caller = handshake.caller)
    (htarget : later.target = handshake.target) (hpurpose : later.purpose = handshake.purpose)
    (hresult : ∀ result, handshake.result = some result → later.result = some result)
    (hanswers : AnswersAccepted later) : Invariant (handshakes.set call later) interleaves where
  answers := forall_getElem?_set hinv.answers hanswers
  linked := by
    refine forall_getElem?_set hinv.linked fun request hrequest ↦ ?_
    rw [hcaller, htarget]
    exact hinv.linked call handshake hget request (hpurpose ▸ hrequest)
  accepted := by
    intro request interleave hinterleave htrue
    refine (hinv.accepted request interleave hinterleave htrue).mono fun other old hother ↦ ?_
    rw [List.getElem?_set]
    split_ifs with heq hlt
    · subst heq
      rw [hget, Option.some.injEq] at hother
      subst hother
      exact ⟨later, rfl, hcaller, htarget, hresult⟩
    · subst heq
      exact absurd (List.getElem?_eq_some_iff.mp hget).1 hlt
    · exact ⟨old, hother, rfl, rfl, fun _ ↦ id⟩

omit [DecidableEq DhtAddress] in
/-- A handshake begins. -/
theorem Invariant.append_handshake {handshakes : List (Handshake DhtAddress)}
    {interleaves : List (Interleave DhtAddress)} (hinv : Invariant handshakes interleaves)
    {handshake : Handshake DhtAddress} (hresponse : handshake.response = none)
    (hresult : handshake.result = none)
    (hlinked : Linked interleaves handshakes.length handshake) :
    Invariant (handshakes ++ [handshake]) interleaves where
  answers := by
    refine forall_getElem?_append hinv.answers fun index element helement _ ↦ ?_
    have heq := List.mem_singleton.mp (List.mem_of_getElem? helement)
    rw [heq, hresponse, hresult]
    exact ⟨nofun, nofun⟩
  linked := by
    refine forall_getElem?_append hinv.linked fun index element helement ↦ ?_
    rw [List.getElem?_singleton] at helement
    split_ifs at helement with hzero
    rw [Option.some.injEq] at helement
    rw [hzero, Nat.add_zero, ← helement]
    exact hlinked
  accepted := by
    intro request interleave hinterleave htrue
    refine (hinv.accepted request interleave hinterleave htrue).mono fun other old hother ↦ ?_
    have hlt := (List.getElem?_eq_some_iff.mp hother).1
    refine ⟨old, ?_, rfl, rfl, fun _ ↦ id⟩
    rw [List.getElem?_append_left hlt, hother]

omit [DecidableEq DhtAddress] in
/-- An interleave request goes on: its nodes stay, and its handshake if it has one. -/
theorem Invariant.set_interleave {handshakes : List (Handshake DhtAddress)}
    {interleaves : List (Interleave DhtAddress)} (hinv : Invariant handshakes interleaves)
    {request : ℕ} {interleave : Interleave DhtAddress} (later : Interleave DhtAddress)
    (hget : interleaves[request]? = some interleave)
    (hreceiver : later.receiver = interleave.receiver)
    (horiginator : later.originator = interleave.originator)
    (hhandshake : ∀ call, interleave.handshake = some call → later.handshake = some call)
    (haccepted : later.accepted = some true → HandshakeAccepted handshakes later) :
    Invariant handshakes (interleaves.set request later) where
  answers := hinv.answers
  linked := by
    intro call handshake hcall other hpurpose
    obtain ⟨old, hold, hlink, hcaller, htarget⟩ := hinv.linked call handshake hcall other hpurpose
    rw [List.getElem?_set]
    split_ifs with heq hlt
    · subst heq
      rw [hget, Option.some.injEq] at hold
      subst hold
      exact ⟨later, rfl, hhandshake call hlink, hreceiver ▸ hcaller, horiginator ▸ htarget⟩
    · subst heq
      exact absurd (List.getElem?_eq_some_iff.mp hget).1 hlt
    · exact ⟨old, hold, hlink, hcaller, htarget⟩
  accepted := forall_getElem?_set hinv.accepted haccepted

omit [DecidableEq DhtAddress] in
/-- Interleave requests are sent. -/
theorem Invariant.append_interleaves {handshakes : List (Handshake DhtAddress)}
    {interleaves added : List (Interleave DhtAddress)} (hinv : Invariant handshakes interleaves)
    (hadded : ∀ interleave ∈ added, interleave.accepted = none) :
    Invariant handshakes (interleaves ++ added) where
  answers := hinv.answers
  linked := by
    intro call handshake hcall request hpurpose
    obtain ⟨old, hold, hlink⟩ := hinv.linked call handshake hcall request hpurpose
    have hlt := (List.getElem?_eq_some_iff.mp hold).1
    refine ⟨old, ?_, hlink⟩
    rw [List.getElem?_append_left hlt, hold]
  accepted := by
    refine forall_getElem?_append hinv.accepted fun index interleave hinterleave htrue ↦ ?_
    rw [hadded interleave (List.mem_of_getElem? hinterleave)] at htrue
    cases htrue

/-! ### Every step keeps the invariant -/

/-- A request that is not rejected is accepted. -/
theorem accepted_handleRequest {node : Node DhtAddress} {request : HandshakeRequest DhtAddress}
    {sender : DhtAddress} (hnot : sender ∉ node.ongoingInterleaves)
    (haccepts : node.acceptsDirectly sender = true ∨ node.acceptsInterleaving request = true) :
    (node.handleRequest request sender).2.accepted = true := by
  rw [Node.handleRequest, if_neg hnot]
  split_ifs with hdirect hinterleaving
  · rfl
  · rfl
  · exact absurd haccepts (not_or.mpr ⟨hdirect, hinterleaving⟩)

theorem Invariant.handleHandshake {network : Network DhtAddress}
    (hinv : Invariant network.handshakes network.interleaves) {call : ℕ}
    {handshake : Handshake DhtAddress} (hget : network.handshakes[call]? = some handshake)
    (haccepts : InterleavesAccepted network (.handleHandshake call)) :
    Invariant (network.handleHandshake call handshake).handshakes
      (network.handleHandshake call handshake).interleaves := by
  have hset := hinv.set_handshake
    { handshake with
      response := some ((network.nodes handshake.target).handleRequest handshake.request
        handshake.caller).2 } hget rfl rfl rfl (fun _ ↦ id) ?_
  · refine hset.append_interleaves fun interleave hmem ↦ ?_
    obtain ⟨nodeId, -, rfl⟩ := List.mem_map.mp hmem
    rfl
  · intro hfor
    obtain ⟨hnot, hor⟩ := haccepts handshake hget hfor
    refine ⟨fun response hresponse ↦ ?_, (hinv.answers call handshake hget hfor).2⟩
    rw [Option.some.injEq] at hresponse
    rw [← hresponse]
    exact accepted_handleRequest hnot hor

omit [DecidableEq DhtAddress] in
/-- A handshake that is not made for an interleave request is linked to none. -/
theorem linked_of_purpose_ne {interleaves : List (Interleave DhtAddress)} {call : ℕ}
    {handshake : Handshake DhtAddress}
    (hpurpose : ∀ request, handshake.purpose ≠ .forInterleave request) :
    Linked interleaves call handshake :=
  fun request hrequest ↦ absurd hrequest (hpurpose request)

theorem Invariant.returnHandshake {network : Network DhtAddress}
    (hinv : Invariant network.handshakes network.interleaves) {call : ℕ}
    {handshake : Handshake DhtAddress} (hget : network.handshakes[call]? = some handshake)
    (hnone : handshake.result = none) {result : HandshakeResponse DhtAddress}
    (haccepted : handshake.isForInterleave = true → result.accepted = true) :
    Invariant (network.returnHandshake call handshake result).handshakes
      (network.returnHandshake call handshake result).interleaves := by
  have hset := hinv.set_handshake { handshake with result := some result } hget rfl rfl rfl
    (fun other hother ↦ absurd (hnone.symm.trans hother) nofun) ?_
  · unfold Network.returnHandshake
    dsimp only
    split
    · exact hset.append_handshake rfl rfl (linked_of_purpose_ne nofun)
    · exact hset
  · intro hfor
    refine ⟨(hinv.answers call handshake hget hfor).1, fun other hother ↦ ?_⟩
    rw [Option.some.injEq] at hother
    rw [← hother]
    exact haccepted hfor

omit [DecidableEq DhtAddress] in
/-- When a handshake that was made for an interleave request has returned, it was accepted. -/
theorem Invariant.handshakeAccepted {handshakes : List (Handshake DhtAddress)}
    {interleaves : List (Interleave DhtAddress)} (hinv : Invariant handshakes interleaves)
    {call request : ℕ} {handshake : Handshake DhtAddress} {interleave : Interleave DhtAddress}
    (hget : handshakes[call]? = some handshake)
    (hpurpose : handshake.purpose = .forInterleave request)
    (hresult : handshake.result ≠ none) (hinterleave : interleaves[request]? = some interleave) :
    interleave.handshake = some call ∧ handshake.caller = interleave.receiver ∧
      HandshakeAccepted handshakes interleave := by
  obtain ⟨known, hknown, hcall, hcaller, htarget⟩ :=
    hinv.linked call handshake hget request hpurpose
  rw [hinterleave, Option.some.injEq] at hknown
  subst hknown
  obtain ⟨result, hsome⟩ := Option.ne_none_iff_exists'.mp hresult
  have hfor : handshake.isForInterleave = true := by
    rw [Handshake.isForInterleave, hpurpose]
  refine ⟨hcall, hcaller, call, handshake, result, hcall, hget, hcaller, htarget, hsome, ?_⟩
  exact (hinv.answers call handshake hget hfor).2 result hsome

theorem Invariant.continueHandshake {network after : Network DhtAddress}
    (hinv : Invariant network.handshakes network.interleaves) {call : ℕ}
    {handshake : Handshake DhtAddress} (hget : network.handshakes[call]? = some handshake)
    (hresult : handshake.result ≠ none)
    (hcontinue : network.continueHandshake call handshake = some after) :
    Invariant after.handshakes after.interleaves := by
  have hset := hinv.set_handshake { handshake with continued := true } hget rfl rfl rfl
    (fun _ ↦ id) (hinv.answers call handshake hget)
  unfold Network.continueHandshake at hcontinue
  dsimp only at hcontinue
  split at hcontinue
  · cases hcontinue
  · rw [Option.some.injEq] at hcontinue
    exact hcontinue ▸ hset
  case _ request hpurpose =>
    obtain ⟨interleave, hinterleave, rfl⟩ := Option.map_eq_some_iff.mp hcontinue
    have hlt := (List.getElem?_eq_some_iff.mp hget).1
    have hlater : (network.handshakes.set call { handshake with continued := true })[call]? =
        some { handshake with continued := true } := List.getElem?_set_self hlt
    obtain ⟨-, -, haccepted⟩ := hset.handshakeAccepted hlater hpurpose hresult hinterleave
    exact hset.set_interleave { interleave with accepted := some true } hinterleave rfl rfl
      (fun _ ↦ id) fun _ ↦ haccepted

theorem Invariant.handleInterleave {network : Network DhtAddress}
    (hinv : Invariant network.handshakes network.interleaves) {request : ℕ}
    {interleave : Interleave DhtAddress} (hget : network.interleaves[request]? = some interleave)
    (hnone : interleave.handshake = none) :
    Invariant (network.handleInterleave request interleave).handshakes
      (network.handleInterleave request interleave).interleaves := by
  have hlt := (List.getElem?_eq_some_iff.mp hget).1
  have hset := hinv.set_interleave
    { interleave with handshake := some network.handshakes.length } hget rfl rfl
    (fun call hcall ↦ absurd (hnone.symm.trans hcall) nofun) fun htrue ↦ ?_
  · refine hset.append_handshake rfl rfl fun other hother ↦ ?_
    injection hother with hother
    subst hother
    exact ⟨_, List.getElem?_set_self hlt, rfl, rfl, rfl⟩
  · obtain ⟨call, -, -, hcall, -⟩ := hinv.accepted request interleave hget htrue
    exact absurd (hnone.symm.trans hcall) nofun

theorem step_invariant {network after : Network DhtAddress} {event : Event DhtAddress}
    (hinv : Invariant network.handshakes network.interleaves)
    (haccepts : InterleavesAccepted network event) (hstep : step network event = some after) :
    Invariant after.handshakes after.interleaves := by
  cases event with
  | handshakeWithTarget caller target =>
    rw [step, Option.some.injEq] at hstep
    subst hstep
    exact hinv.append_handshake rfl rfl (linked_of_purpose_ne nofun)
  | handleHandshake call =>
    obtain ⟨handshake, hget, hif⟩ := Option.bind_eq_some_iff.mp hstep
    split_ifs at hif
    rw [Option.some.injEq] at hif
    exact hif ▸ hinv.handleHandshake hget haccepts
  | handshakeReturns call =>
    obtain ⟨handshake, hget, hbind⟩ := Option.bind_eq_some_iff.mp hstep
    obtain ⟨response, hresponse, hif⟩ := Option.bind_eq_some_iff.mp hbind
    split_ifs at hif with hnone
    rw [Option.some.injEq] at hif
    refine hif ▸ hinv.returnHandshake hget hnone fun hfor ↦ ?_
    exact (hinv.answers call handshake hget hfor).1 response hresponse
  | handshakeFails call =>
    obtain ⟨handshake, hget, hif⟩ := Option.bind_eq_some_iff.mp hstep
    split_ifs at hif with hnone
    rw [Option.some.injEq] at hif
    refine hif ▸ hinv.returnHandshake hget hnone fun hfor ↦ ?_
    rw [haccepts handshake hget] at hfor
    cases hfor
  | handshakeContinues call =>
    obtain ⟨handshake, hget, hif⟩ := Option.bind_eq_some_iff.mp hstep
    split_ifs at hif with hresult
    exact hinv.continueHandshake hget hresult.1 hif
  | handleInterleave request =>
    obtain ⟨interleave, hget, hif⟩ := Option.bind_eq_some_iff.mp hstep
    split_ifs at hif with hnone
    rw [Option.some.injEq] at hif
    exact hif ▸ hinv.handleInterleave hget hnone
  | interleaveReturns request =>
    obtain ⟨interleave, hget, hbind⟩ := Option.bind_eq_some_iff.mp hstep
    obtain ⟨accepted, -, hif⟩ := Option.bind_eq_some_iff.mp hbind
    split_ifs at hif
    rw [Option.some.injEq] at hif
    subst hif
    exact hinv.set_interleave { interleave with ended := true } hget rfl rfl (fun _ ↦ id)
      (hinv.accepted request interleave hget)
  | interleaveFails request =>
    obtain ⟨interleave, hget, hif⟩ := Option.bind_eq_some_iff.mp hstep
    split_ifs at hif
    rw [Option.some.injEq] at hif
    subst hif
    exact hinv.set_interleave { interleave with ended := true } hget rfl rfl (fun _ ↦ id)
      (hinv.accepted request interleave hget)

/-! ### Where neighbours are removed -/

/-- No node loses a neighbour. -/
def KeepsNeighbors (before after : Network DhtAddress) : Prop :=
  ∀ nodeId, ∀ neighbor ∈ before.neighborIds nodeId, neighbor ∈ after.neighborIds nodeId

omit [DecidableEq DhtAddress] in
theorem KeepsNeighbors.trans {first second third : Network DhtAddress}
    (hfirst : KeepsNeighbors first second) (hsecond : KeepsNeighbors second third) :
    KeepsNeighbors first third :=
  fun nodeId neighbor hmem ↦ hsecond nodeId neighbor (hfirst nodeId neighbor hmem)

/-- The neighbours behind a change of one node. -/
theorem neighborIds_modifyNode (network : Network DhtAddress) (nodeId other : DhtAddress)
    (change : Node DhtAddress → Node DhtAddress) :
    (network.modifyNode nodeId change).neighborIds other =
      if other = nodeId then (change (network.nodes nodeId)).neighbors.getIds
      else network.neighborIds other := by
  rw [Network.neighborIds, Network.modifyNode]
  dsimp only
  rw [Function.update_apply]
  split_ifs <;> rfl

theorem keepsNeighbors_modifyNode (network : Network DhtAddress) (nodeId : DhtAddress)
    (change : Node DhtAddress → Node DhtAddress)
    (hchange : ∀ node, ∀ neighbor ∈ node.neighbors.getIds,
      neighbor ∈ (change node).neighbors.getIds) :
    KeepsNeighbors network (network.modifyNode nodeId change) := by
  intro other neighbor hmem
  rw [neighborIds_modifyNode]
  split_ifs with heq
  · subst heq
    exact hchange _ neighbor hmem
  · exact hmem

theorem keepsNeighbors_startHandshake (network : Network DhtAddress) (caller target : DhtAddress)
    (interleaveNodeId : Option DhtAddress) (purpose : Purpose DhtAddress) :
    KeepsNeighbors network (network.startHandshake caller target interleaveNodeId purpose) := by
  have hmark := keepsNeighbors_modifyNode network caller
    (fun node ↦ { node with ongoingHandshakes := node.ongoingHandshakes.add target })
    fun _ _ ↦ id
  exact hmark

/-- Handling a request removes no neighbour. -/
theorem mem_getIds_handleRequest {node : Node DhtAddress} (request : HandshakeRequest DhtAddress)
    (sender : DhtAddress) {neighbor : DhtAddress} (hmem : neighbor ∈ node.neighbors.getIds) :
    neighbor ∈ (node.handleRequest request sender).1.neighbors.getIds := by
  unfold Node.handleRequest
  split_ifs
  · exact hmem
  · exact NodeList.mem_getIds_add_of_mem hmem
  · exact NodeList.mem_getIds_add_of_mem hmem
  · exact hmem

theorem keepsNeighbors_handleHandshake (network : Network DhtAddress) (call : ℕ)
    (handshake : Handshake DhtAddress) :
    KeepsNeighbors network (network.handleHandshake call handshake) := by
  have hmodify := keepsNeighbors_modifyNode network handshake.target
    (fun node ↦ (node.handleRequest handshake.request handshake.caller).1)
    fun _ _ ↦ mem_getIds_handleRequest handshake.request handshake.caller
  exact hmodify

theorem keepsNeighbors_returnHandshake (network : Network DhtAddress) (call : ℕ)
    (handshake : Handshake DhtAddress) (result : HandshakeResponse DhtAddress) :
    KeepsNeighbors network (network.returnHandshake call handshake result) := by
  unfold Network.returnHandshake
  dsimp only
  have hadd : KeepsNeighbors network (Network.modifyNode
      { network with
        handshakes := network.handshakes.set call { handshake with result := some result } }
      handshake.caller fun node ↦
        if result.accepted then { node with neighbors := node.neighbors.add handshake.target }
        else node) := by
    refine keepsNeighbors_modifyNode
      { network with
        handshakes := network.handshakes.set call { handshake with result := some result } }
      handshake.caller _ fun node neighbor hmem ↦ ?_
    split_ifs
    · exact NodeList.mem_getIds_add_of_mem hmem
    · exact hmem
  split
  · exact hadd.trans (keepsNeighbors_startHandshake _ _ _ _ _)
  · exact hadd.trans (keepsNeighbors_modifyNode _ _ _ fun _ _ ↦ id)

/-- A node that removes a neighbour loses no other one, and no other node loses any. -/
theorem removed_of_nodes {network after : Network DhtAddress} {changed removed : DhtAddress}
    {node : Node DhtAddress} (hafter : after.nodes = Function.update network.nodes changed node)
    (hnode : node.neighbors = (network.nodes changed).neighbors.remove removed)
    {nodeId neighbor : DhtAddress} (hmem : neighbor ∈ network.neighborIds nodeId)
    (hnot : neighbor ∉ after.neighborIds nodeId) : nodeId = changed ∧ neighbor = removed := by
  rw [Network.neighborIds, hafter, Function.update_apply] at hnot
  split_ifs at hnot with heq
  · subst heq
    refine ⟨rfl, ?_⟩
    by_contra hne
    rw [hnode] at hnot
    exact hnot (NodeList.mem_getIds_remove.mpr ⟨hmem, hne⟩)
  · exact absurd hmem hnot

/-- The sender of an interleave request loses its receiver, and only if it was accepted. -/
theorem removed_returnInterleave {network : Network DhtAddress} {request : ℕ}
    {interleave : Interleave DhtAddress} {accepted : Bool} {nodeId neighbor : DhtAddress}
    (hmem : neighbor ∈ network.neighborIds nodeId)
    (hnot : neighbor ∉
      (network.returnInterleave request interleave accepted).neighborIds nodeId) :
    accepted = true ∧ nodeId = interleave.sender ∧ neighbor = interleave.receiver := by
  cases accepted with
  | true =>
    refine ⟨rfl, ?_⟩
    exact removed_of_nodes rfl rfl hmem hnot
  | false =>
    refine absurd ?_ hnot
    exact keepsNeighbors_modifyNode
      { network with
        interleaves := network.interleaves.set request { interleave with ended := true } }
      interleave.sender
      (fun node ↦
        { node with ongoingInterleaves := node.ongoingInterleaves.delete interleave.receiver })
      (fun _ _ ↦ id) nodeId neighbor hmem

/-- The only steps that remove neighbours: the receiver of an interleave request goes on behind its
handshake, and the sender gets the answer that it was accepted. -/
theorem step_neighbors {network after : Network DhtAddress} {event : Event DhtAddress}
    (hstep : step network event = some after) :
    KeepsNeighbors network after ∨
    (∃ call handshake request interleave, event = .handshakeContinues call ∧
      network.handshakes[call]? = some handshake ∧ handshake.result ≠ none ∧
      handshake.purpose = .forInterleave request ∧
      network.interleaves[request]? = some interleave ∧
      ∀ nodeId, ∀ neighbor ∈ network.neighborIds nodeId, neighbor ∉ after.neighborIds nodeId →
        nodeId = handshake.caller ∧ neighbor = interleave.sender) ∨
    ∃ request interleave, event = .interleaveReturns request ∧
      network.interleaves[request]? = some interleave ∧ interleave.accepted = some true ∧
      ∀ nodeId, ∀ neighbor ∈ network.neighborIds nodeId, neighbor ∉ after.neighborIds nodeId →
        nodeId = interleave.sender ∧ neighbor = interleave.receiver := by
  cases event with
  | handshakeWithTarget caller target =>
    rw [step, Option.some.injEq] at hstep
    exact Or.inl (hstep ▸ keepsNeighbors_startHandshake network caller target none .withTarget)
  | handleHandshake call =>
    obtain ⟨handshake, -, hif⟩ := Option.bind_eq_some_iff.mp hstep
    split_ifs at hif
    rw [Option.some.injEq] at hif
    exact Or.inl (hif ▸ keepsNeighbors_handleHandshake network call handshake)
  | handshakeReturns call =>
    obtain ⟨handshake, -, hbind⟩ := Option.bind_eq_some_iff.mp hstep
    obtain ⟨response, -, hif⟩ := Option.bind_eq_some_iff.mp hbind
    split_ifs at hif
    rw [Option.some.injEq] at hif
    exact Or.inl (hif ▸ keepsNeighbors_returnHandshake network call handshake response)
  | handshakeFails call =>
    obtain ⟨handshake, -, hif⟩ := Option.bind_eq_some_iff.mp hstep
    split_ifs at hif
    rw [Option.some.injEq] at hif
    exact Or.inl (hif ▸ keepsNeighbors_returnHandshake network call handshake ⟨false, none⟩)
  | handshakeContinues call =>
    obtain ⟨handshake, hget, hif⟩ := Option.bind_eq_some_iff.mp hstep
    split_ifs at hif with hresult
    unfold Network.continueHandshake at hif
    dsimp only at hif
    split at hif
    · cases hif
    case _ targetNodeId hpurpose =>
      rw [Option.some.injEq] at hif
      left
      rw [← hif]
      exact keepsNeighbors_modifyNode
        { network with
          handshakes := network.handshakes.set call { handshake with continued := true } }
        handshake.caller _ fun _ _ ↦ id
    case _ request hpurpose =>
      obtain ⟨interleave, hinterleave, rfl⟩ := Option.map_eq_some_iff.mp hif
      refine Or.inr (Or.inl ⟨call, handshake, request, interleave, rfl, hget, hresult.1, hpurpose,
        hinterleave, fun nodeId neighbor hmem hnot ↦ ?_⟩)
      exact removed_of_nodes rfl rfl hmem hnot
  | handleInterleave request =>
    obtain ⟨interleave, -, hif⟩ := Option.bind_eq_some_iff.mp hstep
    split_ifs at hif
    rw [Option.some.injEq] at hif
    left
    rw [← hif]
    exact keepsNeighbors_startHandshake
      { network with
        interleaves := network.interleaves.set request
          { interleave with handshake := some network.handshakes.length } } _ _ _ _
  | interleaveReturns request =>
    obtain ⟨interleave, hget, hbind⟩ := Option.bind_eq_some_iff.mp hstep
    obtain ⟨accepted, haccepted, hif⟩ := Option.bind_eq_some_iff.mp hbind
    split_ifs at hif
    rw [Option.some.injEq] at hif
    subst hif
    cases accepted with
    | false =>
      refine Or.inl fun nodeId neighbor hmem ↦ ?_
      by_contra hnot
      exact absurd (removed_returnInterleave hmem hnot).1 Bool.false_ne_true
    | true =>
      exact Or.inr (Or.inr ⟨request, interleave, rfl, hget, haccepted,
        fun nodeId neighbor hmem hnot ↦ (removed_returnInterleave hmem hnot).2⟩)
  | interleaveFails request =>
    obtain ⟨interleave, -, hif⟩ := Option.bind_eq_some_iff.mp hstep
    split_ifs at hif
    rw [Option.some.injEq] at hif
    subst hif
    refine Or.inl fun nodeId neighbor hmem ↦ ?_
    by_contra hnot
    exact absurd (removed_returnInterleave hmem hnot).1 Bool.false_ne_true

/-! ### The main result -/

theorem Invariant.costsNoLink {network : Network DhtAddress}
    (hinv : Invariant network.handshakes network.interleaves) : CostsNoLink network where
  accepted := hinv.accepted
  removed := by
    intro event after hstep nodeId neighbor hmem hnot
    rcases step_neighbors hstep with hkeeps |
      ⟨call, handshake, request, interleave, rfl, hget, hresult, hpurpose, hinterleave, hremoved⟩ |
      ⟨request, interleave, rfl, hinterleave, htrue, hremoved⟩
    · exact absurd (hkeeps nodeId neighbor hmem) hnot
    · obtain ⟨hnodeId, hneighbor⟩ := hremoved nodeId neighbor hmem hnot
      obtain ⟨hcall, hcaller, haccepted⟩ :=
        hinv.handshakeAccepted hget hpurpose hresult hinterleave
      refine ⟨request, interleave, hinterleave, Or.inl ⟨call, hcall, rfl, ?_, hneighbor⟩,
        haccepted⟩
      exact hnodeId.trans hcaller
    · obtain ⟨hnodeId, hneighbor⟩ := hremoved nodeId neighbor hmem hnot
      exact ⟨request, interleave, hinterleave, Or.inr ⟨rfl, hnodeId, hneighbor⟩,
        hinv.accepted request interleave hinterleave htrue⟩

/-- A network before its first handshake, with any neighbours at any node. -/
def AtRest (network : Network DhtAddress) : Prop :=
  network.handshakes = [] ∧ network.interleaves = []

/-- Assumes: a run in which the handshakes made for interleave requests do not fail and are not
rejected. In every state of the run, interleaving costs no link. -/
theorem costsNoLink_of_interleavesAccepted (network : Network DhtAddress)
    (hreachable : Transition.Reachable step InterleavesAccepted AtRest network) :
    CostsNoLink network := by
  have hinv : Invariant network.handshakes network.interleaves := by
    refine Transition.Reachable.invariant
      (?_ : ∀ network, _ → Invariant network.handshakes network.interleaves) ?_ hreachable
    · rintro network ⟨hhandshakes, hinterleaves⟩
      rw [hhandshakes, hinterleaves]
      exact ⟨fun _ _ hsome ↦ by simp at hsome, fun _ _ hsome ↦ by simp at hsome,
        fun _ _ hsome ↦ by simp at hsome⟩
    · intro network event after _ hinv haccepts hstep
      exact step_invariant hinv haccepts hstep
  exact hinv.costsNoLink

/-- `InterleavesAccepted`, evaluated. -/
def interleavesAccepted? (network : Network DhtAddress) : Event DhtAddress → Bool
  | .handshakeFails call => network.handshakes[call]?.all fun handshake ↦
      !handshake.isForInterleave
  | .handleHandshake call => network.handshakes[call]?.all fun handshake ↦
      let target := network.nodes handshake.target
      !handshake.isForInterleave || (decide (handshake.caller ∉ target.ongoingInterleaves) &&
        (target.acceptsDirectly handshake.caller || target.acceptsInterleaving handshake.request))
  | _ => true

theorem interleavesAccepted_of_eval (network : Network DhtAddress) (event : Event DhtAddress)
    (heval : interleavesAccepted? network event = true) : InterleavesAccepted network event := by
  cases event with
  | handshakeFails call =>
    intro handshake hget
    rw [interleavesAccepted?, hget, Option.all_some] at heval
    simpa using heval
  | handleHandshake call =>
    intro handshake hget hfor
    rw [interleavesAccepted?, hget, Option.all_some, hfor] at heval
    simpa using heval
  | handshakeWithTarget caller target => trivial
  | handshakeReturns call => trivial
  | handshakeContinues call => trivial
  | handleInterleave request => trivial
  | interleaveReturns request => trivial
  | interleaveFails request => trivial

/-- The handshaker of a node with some neighbours. -/
def nodeWith (ownId : ℕ) (neighbors : OrderedSet ℕ) : Node ℕ :=
  ⟨⟨ownId, 20, neighbors⟩, OrderedSet.empty, OrderedSet.empty, 2⟩

/-- Node 1 is full: its neighbours are 4 and 2. Node 3 has no neighbours. -/
def fullNode : Network ℕ where
  nodes
    | 1 => nodeWith 1 ((OrderedSet.empty.add 4).add 2)
    | 2 => nodeWith 2 (OrderedSet.empty.add 1)
    | 4 => nodeWith 4 (OrderedSet.empty.add 1)
    | nodeId => nodeWith nodeId OrderedSet.empty
  handshakes := []
  interleaves := []

/-- Node 3 shakes hands with the full node, which asks its neighbour 2 to interleave. -/
def interleaveRequested : List (Event ℕ) :=
  [.handshakeWithTarget 3 1, .handleHandshake 0, .handleInterleave 0]

/-- The handshake of node 2 with the requester is accepted: the link to the full node is replaced
by the one to the requester. -/
theorem link_replaced :
    ∃ network : Network ℕ,
      Transition.Reachable step InterleavesAccepted AtRest network ∧
      network.neighborIds 1 = [4, 3] ∧ network.neighborIds 2 = [3] ∧ CostsNoLink network := by
  have hrun : (Transition.checkedRun step interleavesAccepted? fullNode
      (interleaveRequested ++ [.handleHandshake 1, .handshakeReturns 1, .handshakeContinues 1,
        .interleaveReturns 0])).map (fun network ↦
          (network.neighborIds 1, network.neighborIds 2)) = some ([4, 3], [3]) := by
    decide +kernel
  obtain ⟨network, hnetwork, hfacts⟩ := Option.map_eq_some_iff.mp hrun
  rw [Prod.mk.injEq] at hfacts
  have hreachable : Transition.Reachable step InterleavesAccepted AtRest network :=
    .of_checkedRun _ interleavesAccepted_of_eval (.start ⟨rfl, rfl⟩) hnetwork
  exact ⟨network, hreachable, hfacts.1, hfacts.2,
    costsNoLink_of_interleavesAccepted network hreachable⟩

/-- The handshake of node 2 with the requester times out. -/
def handshakeTimesOut : List (Event ℕ) :=
  interleaveRequested ++ [.handshakeFails 1, .handshakeContinues 1, .interleaveReturns 0]

/-- The handshake of node 2 with the requester times out. Node 2 gives up the link to the full node
and answers that it was accepted, the full node gives it up too, and node 2 has no neighbour. -/
theorem link_lost_after_timeout :
    ∃ network : Network ℕ,
      Transition.Reachable step (fun _ _ ↦ True) AtRest network ∧
      network.neighborIds 1 = [4, 3] ∧ network.neighborIds 2 = [] ∧ ¬CostsNoLink network := by
  have hneighbors : (Transition.run step fullNode handshakeTimesOut).map (fun network ↦
      (network.neighborIds 1, network.neighborIds 2)) = some ([4, 3], []) := by
    decide +kernel
  have hcalls : (Transition.run step fullNode handshakeTimesOut).map (fun network ↦
      (network.interleaves.map fun interleave ↦ (interleave.handshake, interleave.accepted),
        network.handshakes.map fun handshake ↦ handshake.result.map (·.accepted))) =
      some ([(some 1, some true)], [none, some false]) := by
    decide +kernel
  obtain ⟨network, hnetwork, hfacts⟩ := Option.map_eq_some_iff.mp hneighbors
  rw [hnetwork, Option.map_some, Option.some.injEq, Prod.mk.injEq] at hcalls
  obtain ⟨hinterleaves, hhandshakes⟩ := hcalls
  rw [Prod.mk.injEq] at hfacts
  have hreachable : Transition.Reachable step (fun _ _ ↦ True) AtRest network :=
    .of_run _ (fun _ _ _ ↦ trivial) (.start ⟨rfl, rfl⟩) hnetwork
  refine ⟨network, hreachable, hfacts.1, hfacts.2, fun hcosts ↦ ?_⟩
  obtain ⟨interleave, hinterleave, hfields⟩ : ∃ interleave,
      network.interleaves[0]? = some interleave ∧
        (interleave.handshake, interleave.accepted) = (some 1, some true) := by
    rw [← Option.map_eq_some_iff, ← List.getElem?_map, hinterleaves]
    rfl
  rw [Prod.mk.injEq] at hfields
  obtain ⟨call, handshake, result, hcall, hget, -, -, hresult, haccepted⟩ :=
    hcosts.accepted 0 interleave hinterleave hfields.2
  rw [hfields.1, Option.some.injEq] at hcall
  subst hcall
  have hanswer : (network.handshakes.map fun handshake ↦ handshake.result.map (·.accepted))[1]? =
      some (some false) := by
    rw [hhandshakes]
    rfl
  rw [List.getElem?_map, hget, Option.map_some, hresult, Option.map_some, haccepted] at hanswer
  cases hanswer

end PomboStorageNode.TrackerlessNetwork.Handshaker
