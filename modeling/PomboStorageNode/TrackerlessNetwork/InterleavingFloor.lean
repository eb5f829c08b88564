import Mathlib.Data.List.Perm.Basic
import PomboStorageNode.TrackerlessNetwork.Handshaker

/-!
# The floor under interleaving

A full node that accepts a handshake takes the requester as a neighbour at once, and asks another
neighbour to go. That one is removed when it answers, which it may do at any time or not at all. The
guard in `handleRequest` accepts only while two neighbours are left when all that were asked have
gone.

Here a single node meets any handshake and interleave requests, makes handshakes of its own, and
gets any answers. What carries the floor is that the ids in `ongoingInterleaves` are exactly those
of the neighbours that were asked and have not been dealt with (`Books.ongoing`), so that each
neighbour that is gone in the end was counted once. `interleaving_floor` puts the results together.
-/

set_option autoImplicit false

namespace PomboStorageNode.TrackerlessNetwork.InterleavingFloor

open Library Transition Handshaker

variable {DhtAddress : Type*}

/-! ### One node -/

/-- Where a call of the handshaker stands: in the `await` of a handshake, of `handshakeWithTarget`,
of the `handshakeWithInterleaving` that this calls, or of the one that `interleaveRequest` calls;
or behind `handshakeWithInterleaving`, where `handshakeWithTarget` is about to end and
`interleaveRequest` is about to give up the link to the node that asked it. -/
inductive Call (DhtAddress : Type*)
  | withTarget (target : DhtAddress)
  | afterTarget (interleaveTarget target : DhtAddress)
  | forInterleave (target remote : DhtAddress)
  | endsTarget (target : DhtAddress)
  | endsInterleave (remote : DhtAddress)
  deriving DecidableEq

/-- The ids that a call has put into `ongoingHandshakes` and has not removed yet. -/
def Call.holds : Call DhtAddress → List DhtAddress
  | .withTarget target => [target]
  | .afterTarget interleaveTarget target => [interleaveTarget, target]
  | .forInterleave target _ => [target]
  | .endsTarget target => [target]
  | .endsInterleave _ => []

/-- A node with its calls, the neighbours that it asked to interleave and that have not answered,
and those whose answer `then` has handled and `finally` has not. -/
structure State (DhtAddress : Type*) where
  node : Node DhtAddress
  calls : List (Call DhtAddress)
  interleaves : List DhtAddress
  settled : List DhtAddress

/-- What can happen. A handshake or an interleave request that fails or times out returns
`accepted: false`. -/
inductive Event (DhtAddress : Type*)
  | handshakeRequest (request : HandshakeRequest DhtAddress) (sender : DhtAddress)
  | interleaveRequest (target remote : DhtAddress)
  | handshakeWithTarget (target : DhtAddress)
  | handshakeReturns (call : ℕ) (result : HandshakeResponse DhtAddress)
  | callEnds (call : ℕ)
  | interleaveReturns (nodeId : DhtAddress) (accepted : Bool)
  | interleaveEnds (nodeId : DhtAddress)
  deriving DecidableEq

variable [DecidableEq DhtAddress]

/-- A node adds an id to `ongoingHandshakes` and awaits a handshake. -/
def State.startHandshake (state : State DhtAddress) (target : DhtAddress)
    (call : Call DhtAddress) : State DhtAddress :=
  { state with
    node := { state.node with ongoingHandshakes := state.node.ongoingHandshakes.add target }
    calls := state.calls ++ [call] }

/-- The node after `neighbors.add`, which is called if the handshake was accepted. -/
def addAccepted (node : Node DhtAddress) (target : DhtAddress)
    (result : HandshakeResponse DhtAddress) : Node DhtAddress :=
  if result.accepted then { node with neighbors := node.neighbors.add target } else node

/-- The node after `ongoingHandshakes.delete`. -/
def endHandshake (node : Node DhtAddress) (target : DhtAddress) : Node DhtAddress :=
  { node with ongoingHandshakes := node.ongoingHandshakes.delete target }

/-- A handshake that a call awaits has returned. -/
def State.returnHandshake (state : State DhtAddress) (index : ℕ)
    (result : HandshakeResponse DhtAddress) : Call DhtAddress → Option (State DhtAddress)
  | .withTarget target =>
    let added := addAccepted state.node target result
    match result.interleaveTarget with
    | some interleaveTarget =>
      some { state with
        node := { added with ongoingHandshakes := added.ongoingHandshakes.add interleaveTarget }
        calls := state.calls.set index (.afterTarget interleaveTarget target) }
    | none =>
      some { state with
        node := endHandshake added target
        calls := state.calls.eraseIdx index }
  | .afterTarget interleaveTarget target =>
    some { state with
      node := endHandshake (addAccepted state.node interleaveTarget result) interleaveTarget
      calls := state.calls.set index (.endsTarget target) }
  | .forInterleave target remote =>
    some { state with
      node := endHandshake (addAccepted state.node target result) target
      calls := state.calls.set index (.endsInterleave remote) }
  | .endsTarget _ => none
  | .endsInterleave _ => none

/-- A call goes on behind `handshakeWithInterleaving`, and ends. -/
def State.endCall (state : State DhtAddress) (index : ℕ) :
    Call DhtAddress → Option (State DhtAddress)
  | .endsTarget target =>
    some { state with
      node := endHandshake state.node target
      calls := state.calls.eraseIdx index }
  | .endsInterleave remote =>
    some { state with
      node := { state.node with neighbors := state.node.neighbors.remove remote }
      calls := state.calls.eraseIdx index }
  | _ => none

/-- One step of the node. -/
def step (state : State DhtAddress) : Event DhtAddress → Option (State DhtAddress)
  | .handshakeRequest request sender =>
    let handled := state.node.handleRequest request sender
    some { state with
      node := handled.1
      interleaves := state.interleaves ++ handled.2.interleaveTarget.toList }
  | .interleaveRequest target remote =>
    some (state.startHandshake target (.forInterleave target remote))
  | .handshakeWithTarget target => some (state.startHandshake target (.withTarget target))
  | .handshakeReturns index result => state.calls[index]?.bind (state.returnHandshake index result)
  | .callEnds index => state.calls[index]?.bind (state.endCall index)
  | .interleaveReturns nodeId accepted =>
    if nodeId ∈ state.interleaves then
      some { state with
        node :=
          if accepted then { state.node with neighbors := state.node.neighbors.remove nodeId }
          else state.node
        interleaves := state.interleaves.erase nodeId
        settled := state.settled ++ [nodeId] }
    else none
  | .interleaveEnds nodeId =>
    if nodeId ∈ state.settled then
      some { state with
        node :=
          { state.node with ongoingInterleaves := state.node.ongoingInterleaves.delete nodeId }
        settled := state.settled.erase nodeId }
    else none

/-- A new node. -/
def State.new (ownId : DhtAddress) (limit maxNeighborCount : ℕ) : State DhtAddress :=
  ⟨⟨NodeList.create ownId limit, OrderedSet.empty, OrderedSet.empty, maxNeighborCount⟩, [], [], []⟩

/-- The condition on the steps: requests come from other nodes, and no neighbour is removed for an
interleave request that another node sent. -/
def NoOtherRemovals (state : State DhtAddress) : Event DhtAddress → Prop
  | .handshakeRequest _ sender => state.node.neighbors.ownId ≠ sender
  | .callEnds index => ∀ remote, state.calls[index]? = some (.endsInterleave remote) →
      remote ∉ state.node.neighbors.getIds
  | _ => True

/-! ### The neighbours -/

theorem length_getIds_add_of_new {list : NodeList DhtAddress} {nodeId : DhtAddress}
    (hown : list.ownId ≠ nodeId) (hnew : nodeId ∉ list.getIds)
    (hroom : list.getIds.length < list.limit) :
    (list.add nodeId).getIds.length = list.getIds.length + 1 := by
  have hnotMem : nodeId ∉ list.nodes.elements := hnew
  rw [NodeList.add, if_pos ⟨hown, hroom⟩]
  show (list.nodes.add nodeId).elements.length = _
  rw [OrderedSet.add, dif_neg hnotMem, List.length_append]
  rfl

theorem length_getIds_le_add (list : NodeList DhtAddress) (nodeId : DhtAddress) :
    list.getIds.length ≤ (list.add nodeId).getIds.length := by
  unfold NodeList.add
  split_ifs
  · show list.nodes.elements.length ≤ (list.nodes.add nodeId).elements.length
    unfold OrderedSet.add
    split_ifs
    · exact Nat.le_refl _
    · rw [List.length_append]
      exact Nat.le_add_right _ _
  · exact Nat.le_refl _

theorem length_getIds_le_remove (list : NodeList DhtAddress) (nodeId : DhtAddress) :
    list.getIds.length ≤ (list.remove nodeId).getIds.length + 1 := by
  cases hlength : list.getIds.length with
  | zero => exact Nat.zero_le _
  | succ bound =>
    have hbound : bound < list.getIds.length := by
      rw [hlength]
      exact Nat.lt_succ_self bound
    exact Nat.succ_le_succ (NodeList.le_length_getIds_remove hbound)

theorem getIds_remove_of_notMem {list : NodeList DhtAddress} {nodeId : DhtAddress}
    (hnotMem : nodeId ∉ list.getIds) : (list.remove nodeId).getIds = list.getIds := by
  refine List.filter_eq_self.mpr fun other hother ↦ decide_eq_true ?_
  rintro rfl
  exact hnotMem hother

/-! ### What a request does -/

/-- A request changes nothing, or makes the requester a neighbour at most, or makes a requester a
neighbour in exchange for one that was not asked yet. -/
theorem handleRequest_cases (node : Node DhtAddress) (request : HandshakeRequest DhtAddress)
    (sender : DhtAddress) :
    (node.handleRequest request sender = (node, ⟨false, none⟩)) ∨
    (node.handleRequest request sender =
      ({ node with neighbors := node.neighbors.add sender }, ⟨true, none⟩)) ∨
    ∃ last, last ∉ node.ongoingInterleaves ∧ sender ∉ node.neighbors.getIds ∧
      node.neighbors.getIds.length ≤ node.maxNeighborCount ∧
      node.handleRequest request sender =
        ({ node with
            ongoingInterleaves := node.ongoingInterleaves.add last
            neighbors := node.neighbors.add sender }, ⟨true, some last⟩) := by
  unfold Node.handleRequest
  split_ifs with hongoing hdirect hinterleaving
  · exact .inl rfl
  · exact .inr (.inl rfl)
  · right
    unfold Node.acceptHandshakeWithInterleaving
    dsimp only
    cases hlast : node.neighbors.getLast (request.neighborNodeIds ++
        node.ongoingInterleaves.elements ++ [sender] ++ request.interleaveNodeId.toList) with
    | none => exact .inl rfl
    | some last =>
      have hincluded := List.mem_filter.mp (List.mem_of_getLast? hlast)
      have hnot := of_decide_eq_true hincluded.2
      simp only [List.mem_append, not_or] at hnot
      refine .inr ⟨last, hnot.1.1.2, ?_, ?_, rfl⟩
      · intro hmem
        rw [Node.acceptsDirectly, NodeList.has_iff.mpr hmem, Bool.true_or, Bool.true_or] at hdirect
        exact hdirect rfl
      · rw [Node.acceptsInterleaving, Bool.and_eq_true, NodeList.size_nil] at hinterleaving
        exact of_decide_eq_true hinterleaving.2
  · exact .inl rfl

/-! ### The invariant of the books -/

/-- The configuration stays; `ongoingInterleaves` are the neighbours that were asked and have not
been dealt with, each of them asked once; and every id in `ongoingHandshakes` is held by a call. -/
structure Books (ownId : DhtAddress) (limit maxNeighborCount : ℕ) (state : State DhtAddress) :
    Prop where
  ownId_eq : state.node.neighbors.ownId = ownId
  limit_eq : state.node.neighbors.limit = limit
  max_eq : state.node.maxNeighborCount = maxNeighborCount
  ongoing : state.node.ongoingInterleaves.elements.Perm (state.interleaves ++ state.settled)
  held : ∀ nodeId ∈ state.node.ongoingHandshakes, ∃ call ∈ state.calls, nodeId ∈ call.holds

variable {ownId : DhtAddress} {limit maxNeighborCount : ℕ} {state after : State DhtAddress}

@[simp] theorem ownId_add (list : NodeList DhtAddress) (nodeId : DhtAddress) :
    (list.add nodeId).ownId = list.ownId := by
  unfold NodeList.add
  split_ifs <;> rfl

@[simp] theorem limit_add (list : NodeList DhtAddress) (nodeId : DhtAddress) :
    (list.add nodeId).limit = list.limit := by
  unfold NodeList.add
  split_ifs <;> rfl

/-- A change of the node that leaves its configuration and `ongoingInterleaves` alone. -/
structure KeepsInterleaves (node changed : Node DhtAddress) : Prop where
  ownId_eq : changed.neighbors.ownId = node.neighbors.ownId
  limit_eq : changed.neighbors.limit = node.neighbors.limit
  max_eq : changed.maxNeighborCount = node.maxNeighborCount
  interleaves_eq : changed.ongoingInterleaves = node.ongoingInterleaves

theorem keepsInterleaves_addAccepted (node : Node DhtAddress) (target : DhtAddress)
    (result : HandshakeResponse DhtAddress) :
    KeepsInterleaves node (addAccepted node target result) := by
  unfold addAccepted
  split_ifs
  · exact ⟨ownId_add _ _, limit_add _ _, rfl, rfl⟩
  · exact ⟨rfl, rfl, rfl, rfl⟩

theorem ongoingHandshakes_addAccepted (node : Node DhtAddress) (target : DhtAddress)
    (result : HandshakeResponse DhtAddress) :
    (addAccepted node target result).ongoingHandshakes = node.ongoingHandshakes := by
  unfold addAccepted
  split_ifs <;> rfl

omit [DecidableEq DhtAddress] in
theorem Books.of_keeps (hbooks : Books ownId limit maxNeighborCount state)
    {node : Node DhtAddress} {calls : List (Call DhtAddress)}
    (hkeeps : KeepsInterleaves state.node node)
    (hheld : ∀ nodeId ∈ node.ongoingHandshakes, ∃ call ∈ calls, nodeId ∈ call.holds) :
    Books ownId limit maxNeighborCount { state with node := node, calls := calls } where
  ownId_eq := hkeeps.ownId_eq.trans hbooks.ownId_eq
  limit_eq := hkeeps.limit_eq.trans hbooks.limit_eq
  max_eq := hkeeps.max_eq.trans hbooks.max_eq
  ongoing := by
    show node.ongoingInterleaves.elements.Perm _
    rw [hkeeps.interleaves_eq]
    exact hbooks.ongoing
  held := hheld

omit [DecidableEq DhtAddress] in
/-- The ids are still held when a call is replaced by one that holds all of its ids but those that
are removed. -/
theorem exists_holds_set {calls : List (Call DhtAddress)} {index : ℕ} {call later : Call DhtAddress}
    (hcall : calls[index]? = some call) {nodeId : DhtAddress}
    (hheld : ∃ other ∈ calls, nodeId ∈ other.holds)
    (hlater : nodeId ∈ call.holds → nodeId ∈ later.holds) :
    ∃ other ∈ calls.set index later, nodeId ∈ other.holds := by
  obtain ⟨hindex, heq⟩ := List.getElem?_eq_some_iff.mp hcall
  obtain ⟨other, hother, hholds⟩ := hheld
  obtain ⟨position, hposition, rfl⟩ := List.getElem_of_mem hother
  by_cases hsame : position = index
  · subst hsame
    rw [heq] at hholds
    exact ⟨later, List.mem_set hindex _, hlater hholds⟩
  · have hkept : (calls.set index later)[position]? = some calls[position] := by
      rw [List.getElem?_set_ne (Ne.symm hsame), List.getElem?_eq_getElem hposition]
    exact ⟨calls[position], List.mem_of_getElem? hkept, hholds⟩

omit [DecidableEq DhtAddress] in
theorem exists_holds_eraseIdx {calls : List (Call DhtAddress)} {index : ℕ} {call : Call DhtAddress}
    (hcall : calls[index]? = some call) {nodeId : DhtAddress}
    (hheld : ∃ other ∈ calls, nodeId ∈ other.holds) (hnot : nodeId ∉ call.holds) :
    ∃ other ∈ calls.eraseIdx index, nodeId ∈ other.holds := by
  obtain ⟨hindex, heq⟩ := List.getElem?_eq_some_iff.mp hcall
  obtain ⟨other, hother, hholds⟩ := hheld
  have hperm := List.getElem_cons_eraseIdx_perm hindex
  rcases List.mem_cons.mp (hperm.mem_iff.mpr hother) with rfl | hrest
  · rw [heq] at hholds
    exact absurd hholds hnot
  · exact ⟨other, hrest, hholds⟩

theorem Books.startHandshake (hbooks : Books ownId limit maxNeighborCount state)
    (target : DhtAddress) {call : Call DhtAddress} (hholds : target ∈ call.holds) :
    Books ownId limit maxNeighborCount (state.startHandshake target call) := by
  refine hbooks.of_keeps ⟨rfl, rfl, rfl, rfl⟩ fun nodeId hmem ↦ ?_
  rcases OrderedSet.mem_add.mp hmem with rfl | hold
  · exact ⟨call, List.mem_append_right _ (List.mem_singleton_self call), hholds⟩
  · obtain ⟨other, hother, hheld⟩ := hbooks.held nodeId hold
    exact ⟨other, List.mem_append_left _ hother, hheld⟩

theorem Books.returnHandshake (hbooks : Books ownId limit maxNeighborCount state) {index : ℕ}
    {result : HandshakeResponse DhtAddress} {call : Call DhtAddress}
    (hcall : state.calls[index]? = some call)
    (hstep : state.returnHandshake index result call = some after) :
    Books ownId limit maxNeighborCount after := by
  cases call with
  | withTarget target =>
    have hkeeps := keepsInterleaves_addAccepted state.node target result
    have hsame := ongoingHandshakes_addAccepted state.node target result
    unfold State.returnHandshake at hstep
    dsimp only at hstep
    cases htarget : result.interleaveTarget with
    | some interleaveTarget =>
      rw [htarget] at hstep
      obtain rfl := Option.some.inj hstep
      refine hbooks.of_keeps ⟨hkeeps.1, hkeeps.2, hkeeps.3, hkeeps.4⟩ fun nodeId hmem ↦ ?_
      rw [hsame] at hmem
      rcases OrderedSet.mem_add.mp hmem with rfl | hold
      · obtain ⟨hindex, -⟩ := List.getElem?_eq_some_iff.mp hcall
        exact ⟨_, List.mem_set hindex _, List.mem_cons_self⟩
      · exact exists_holds_set hcall (hbooks.held nodeId hold)
          fun hheld ↦ List.mem_cons_of_mem _ hheld
    | none =>
      rw [htarget] at hstep
      obtain rfl := Option.some.inj hstep
      refine hbooks.of_keeps ⟨hkeeps.1, hkeeps.2, hkeeps.3, hkeeps.4⟩ fun nodeId hmem ↦ ?_
      obtain ⟨hold, hne⟩ := OrderedSet.mem_delete.mp hmem
      rw [hsame] at hold
      exact exists_holds_eraseIdx hcall (hbooks.held nodeId hold)
        fun hheld ↦ hne (List.mem_singleton.mp hheld)
  | afterTarget interleaveTarget target =>
    obtain rfl := Option.some.inj hstep
    have hkeeps := keepsInterleaves_addAccepted state.node interleaveTarget result
    refine hbooks.of_keeps ⟨hkeeps.1, hkeeps.2, hkeeps.3, hkeeps.4⟩ fun nodeId hmem ↦ ?_
    obtain ⟨hold, hne⟩ := OrderedSet.mem_delete.mp hmem
    rw [ongoingHandshakes_addAccepted] at hold
    refine exists_holds_set hcall (hbooks.held nodeId hold) fun hheld ↦ ?_
    exact (List.mem_cons.mp hheld).resolve_left hne
  | forInterleave target remote =>
    obtain rfl := Option.some.inj hstep
    have hkeeps := keepsInterleaves_addAccepted state.node target result
    refine hbooks.of_keeps ⟨hkeeps.1, hkeeps.2, hkeeps.3, hkeeps.4⟩ fun nodeId hmem ↦ ?_
    obtain ⟨hold, hne⟩ := OrderedSet.mem_delete.mp hmem
    rw [ongoingHandshakes_addAccepted] at hold
    refine exists_holds_set hcall (hbooks.held nodeId hold) fun hheld ↦ ?_
    exact absurd (List.mem_singleton.mp hheld) hne
  | endsTarget target => cases hstep
  | endsInterleave remote => cases hstep

theorem Books.endCall (hbooks : Books ownId limit maxNeighborCount state) {index : ℕ}
    {call : Call DhtAddress} (hcall : state.calls[index]? = some call)
    (hstep : state.endCall index call = some after) :
    Books ownId limit maxNeighborCount after := by
  cases call with
  | endsTarget target =>
    obtain rfl := Option.some.inj hstep
    refine hbooks.of_keeps ⟨rfl, rfl, rfl, rfl⟩ fun nodeId hmem ↦ ?_
    obtain ⟨hold, hne⟩ := OrderedSet.mem_delete.mp hmem
    exact exists_holds_eraseIdx hcall (hbooks.held nodeId hold)
      fun hheld ↦ hne (List.mem_singleton.mp hheld)
  | endsInterleave remote =>
    obtain rfl := Option.some.inj hstep
    exact hbooks.of_keeps ⟨rfl, rfl, rfl, rfl⟩ fun nodeId hmem ↦
      exists_holds_eraseIdx hcall (hbooks.held nodeId hmem) List.not_mem_nil
  | withTarget target => cases hstep
  | afterTarget interleaveTarget target => cases hstep
  | forInterleave target remote => cases hstep

theorem Books.handshakeRequest (hbooks : Books ownId limit maxNeighborCount state)
    (request : HandshakeRequest DhtAddress) (sender : DhtAddress) :
    Books ownId limit maxNeighborCount { state with
      node := (state.node.handleRequest request sender).1
      interleaves := state.interleaves ++
        (state.node.handleRequest request sender).2.interleaveTarget.toList } := by
  rcases handleRequest_cases state.node request sender with heq | heq | ⟨last, hlast, -, -, heq⟩
  · rw [heq]
    exact ⟨hbooks.ownId_eq, hbooks.limit_eq, hbooks.max_eq,
      by simpa using hbooks.ongoing, hbooks.held⟩
  · rw [heq]
    exact ⟨(ownId_add _ _).trans hbooks.ownId_eq, (limit_add _ _).trans hbooks.limit_eq,
      hbooks.max_eq, by simpa using hbooks.ongoing, hbooks.held⟩
  · rw [heq]
    refine ⟨(ownId_add _ _).trans hbooks.ownId_eq, (limit_add _ _).trans hbooks.limit_eq,
      hbooks.max_eq, ?_, hbooks.held⟩
    show (state.node.ongoingInterleaves.add last).elements.Perm
      (state.interleaves ++ [last] ++ state.settled)
    have hnotMem : last ∉ state.node.ongoingInterleaves.elements := hlast
    have hmoved : (state.interleaves ++ state.settled ++ [last]).Perm
        (state.interleaves ++ [last] ++ state.settled) := by
      rw [List.append_assoc, List.append_assoc]
      exact List.perm_append_comm.append_left _
    rw [OrderedSet.add, dif_neg hnotMem]
    exact (hbooks.ongoing.append_right _).trans hmoved

omit [DecidableEq DhtAddress] in
/-- No neighbour is asked twice at the same time. -/
theorem Books.nodup (hbooks : Books ownId limit maxNeighborCount state) :
    (state.interleaves ++ state.settled).Nodup :=
  hbooks.ongoing.nodup_iff.mp state.node.ongoingInterleaves.nodup

theorem perm_erase_append {asked settled : List DhtAddress} {nodeId : DhtAddress}
    (hmem : nodeId ∈ asked) :
    (asked ++ settled).Perm (asked.erase nodeId ++ (settled ++ [nodeId])) := by
  rw [← List.append_assoc]
  exact ((List.perm_cons_erase hmem).append_right settled).trans
    (List.perm_append_singleton _ _).symm

theorem elements_delete (set : OrderedSet DhtAddress) (nodeId : DhtAddress) :
    (set.delete nodeId).elements = set.elements.erase nodeId := by
  rw [OrderedSet.delete, set.nodup.erase_eq_filter nodeId]
  exact List.filter_congr fun other _ ↦ by by_cases heq : other = nodeId <;> simp [heq]

theorem Books.step (hbooks : Books ownId limit maxNeighborCount state) {event : Event DhtAddress}
    (hstep : step state event = some after) : Books ownId limit maxNeighborCount after := by
  cases event with
  | handshakeRequest request sender =>
    obtain rfl := Option.some.inj hstep
    exact hbooks.handshakeRequest request sender
  | interleaveRequest target remote =>
    obtain rfl := Option.some.inj hstep
    exact hbooks.startHandshake target (List.mem_singleton_self target)
  | handshakeWithTarget target =>
    obtain rfl := Option.some.inj hstep
    exact hbooks.startHandshake target (List.mem_singleton_self target)
  | handshakeReturns index result =>
    obtain ⟨call, hcall, hreturn⟩ := Option.bind_eq_some_iff.mp hstep
    exact hbooks.returnHandshake hcall hreturn
  | callEnds index =>
    obtain ⟨call, hcall, hend⟩ := Option.bind_eq_some_iff.mp hstep
    exact hbooks.endCall hcall hend
  | interleaveReturns nodeId accepted =>
    unfold InterleavingFloor.step at hstep
    dsimp only at hstep
    split_ifs at hstep with hmem
    all_goals
      obtain rfl := Option.some.inj hstep
      refine ⟨hbooks.ownId_eq, hbooks.limit_eq, hbooks.max_eq, ?_, hbooks.held⟩
      exact hbooks.ongoing.trans (perm_erase_append hmem)
  | interleaveEnds nodeId =>
    unfold InterleavingFloor.step at hstep
    dsimp only at hstep
    split_ifs at hstep with hmem
    obtain rfl := Option.some.inj hstep
    refine ⟨hbooks.ownId_eq, hbooks.limit_eq, hbooks.max_eq, ?_, hbooks.held⟩
    have hnot : nodeId ∉ state.interleaves := fun hasked ↦
      (List.nodup_append.mp hbooks.nodup).2.2 nodeId hasked nodeId hmem rfl
    show (state.node.ongoingInterleaves.delete nodeId).elements.Perm
      (state.interleaves ++ state.settled.erase nodeId)
    rw [elements_delete, ← List.erase_append_right _ hnot]
    exact hbooks.ongoing.erase nodeId

theorem books_of_reachable {guard : State DhtAddress → Event DhtAddress → Prop}
    (hreachable : Reachable step guard (· = State.new ownId limit maxNeighborCount) state) :
    Books ownId limit maxNeighborCount state := by
  refine hreachable.invariant ?_ fun _ _ _ _ hbooks _ hstep ↦ hbooks.step hstep
  rintro _ rfl
  exact ⟨rfl, rfl, rfl, List.Perm.refl _, fun nodeId hmem ↦
    absurd hmem (OrderedSet.notMem_empty nodeId)⟩

/-! ### The floor -/

/-- Two neighbours are left when all that were asked and are still there have gone. -/
def Floor (state : State DhtAddress) : Prop :=
  state.node.ongoingInterleaves.elements.length + 2 ≤
    state.node.neighbors.getIds.length + state.settled.length

theorem length_getIds_le_addAccepted (node : Node DhtAddress) (target : DhtAddress)
    (result : HandshakeResponse DhtAddress) :
    node.neighbors.getIds.length ≤ (addAccepted node target result).neighbors.getIds.length := by
  unfold addAccepted
  split_ifs
  · exact length_getIds_le_add _ _
  · exact Nat.le_refl _

omit [DecidableEq DhtAddress] in
/-- The floor is kept by a change of the node after which it has no fewer neighbours. -/
theorem Floor.of_keeps (hfloor : Floor state) {node : Node DhtAddress}
    {calls : List (Call DhtAddress)}
    (hinterleaves : node.ongoingInterleaves = state.node.ongoingInterleaves)
    (hle : state.node.neighbors.getIds.length ≤ node.neighbors.getIds.length) :
    Floor { state with node := node, calls := calls } := by
  show node.ongoingInterleaves.elements.length + 2 ≤
    node.neighbors.getIds.length + state.settled.length
  rw [hinterleaves]
  exact Nat.le_trans hfloor (Nat.add_le_add_right hle _)

theorem Floor.returnHandshake (hfloor : Floor state) {index : ℕ}
    {result : HandshakeResponse DhtAddress} {call : Call DhtAddress}
    (hstep : state.returnHandshake index result call = some after) : Floor after := by
  cases call with
  | withTarget target =>
    have hkeeps := keepsInterleaves_addAccepted state.node target result
    have hle := length_getIds_le_addAccepted state.node target result
    unfold State.returnHandshake at hstep
    dsimp only at hstep
    cases htarget : result.interleaveTarget <;>
      rw [htarget] at hstep <;> obtain rfl := Option.some.inj hstep <;>
      exact hfloor.of_keeps hkeeps.interleaves_eq hle
  | afterTarget interleaveTarget target =>
    obtain rfl := Option.some.inj hstep
    exact hfloor.of_keeps (keepsInterleaves_addAccepted _ _ _).interleaves_eq
      (length_getIds_le_addAccepted _ _ _)
  | forInterleave target remote =>
    obtain rfl := Option.some.inj hstep
    exact hfloor.of_keeps (keepsInterleaves_addAccepted _ _ _).interleaves_eq
      (length_getIds_le_addAccepted _ _ _)
  | endsTarget target => cases hstep
  | endsInterleave remote => cases hstep

theorem Floor.endCall (hfloor : Floor state) {index : ℕ} {call : Call DhtAddress}
    (hkept : ∀ remote, call = .endsInterleave remote → remote ∉ state.node.neighbors.getIds)
    (hstep : state.endCall index call = some after) : Floor after := by
  cases call with
  | endsTarget target =>
    obtain rfl := Option.some.inj hstep
    exact hfloor.of_keeps rfl (Nat.le_refl _)
  | endsInterleave remote =>
    obtain rfl := Option.some.inj hstep
    refine hfloor.of_keeps rfl (Nat.le_of_eq ?_)
    exact congrArg List.length (getIds_remove_of_notMem (hkept remote rfl)).symm
  | withTarget target => cases hstep
  | afterTarget interleaveTarget target => cases hstep
  | forInterleave target remote => cases hstep

/-- A neighbour is asked to go only when the requester takes its place. -/
theorem Floor.handshakeRequest (hlimit : maxNeighborCount + 1 < limit)
    (hbooks : Books ownId limit maxNeighborCount state) (hfloor : Floor state)
    {request : HandshakeRequest DhtAddress} {sender : DhtAddress}
    (hsender : state.node.neighbors.ownId ≠ sender) :
    Floor { state with
      node := (state.node.handleRequest request sender).1
      interleaves := state.interleaves ++
        (state.node.handleRequest request sender).2.interleaveTarget.toList } := by
  rcases handleRequest_cases state.node request sender with
    heq | heq | ⟨last, hlast, hnew, hle, heq⟩
  · rw [heq]
    exact hfloor
  · rw [heq]
    exact Nat.le_trans hfloor (Nat.add_le_add_right (length_getIds_le_add _ _) _)
  · rw [heq]
    have hroom : state.node.neighbors.getIds.length < state.node.neighbors.limit := by
      rw [hbooks.limit_eq]
      rw [hbooks.max_eq] at hle
      omega
    have hgrown := length_getIds_add_of_new hsender hnew hroom
    have hmarked := state.node.ongoingInterleaves.length_add_le last
    unfold Floor at hfloor ⊢
    dsimp only
    omega

theorem Floor.step (hlimit : maxNeighborCount + 1 < limit)
    (hbooks : Books ownId limit maxNeighborCount state) (hfloor : Floor state)
    {event : Event DhtAddress} (hguard : NoOtherRemovals state event)
    (hstep : step state event = some after) : Floor after := by
  cases event with
  | handshakeRequest request sender =>
    obtain rfl := Option.some.inj hstep
    exact hfloor.handshakeRequest hlimit hbooks hguard
  | interleaveRequest target remote =>
    obtain rfl := Option.some.inj hstep
    exact hfloor.of_keeps rfl (Nat.le_refl _)
  | handshakeWithTarget target =>
    obtain rfl := Option.some.inj hstep
    exact hfloor.of_keeps rfl (Nat.le_refl _)
  | handshakeReturns index result =>
    obtain ⟨call, -, hreturn⟩ := Option.bind_eq_some_iff.mp hstep
    exact hfloor.returnHandshake hreturn
  | callEnds index =>
    obtain ⟨call, hcall, hend⟩ := Option.bind_eq_some_iff.mp hstep
    exact hfloor.endCall (fun remote heq ↦ hguard remote (heq ▸ hcall)) hend
  | interleaveReturns nodeId accepted =>
    have hremoved := length_getIds_le_remove state.node.neighbors nodeId
    unfold InterleavingFloor.step at hstep
    dsimp only at hstep
    split_ifs at hstep with hmem haccepted
    all_goals
      obtain rfl := Option.some.inj hstep
      unfold Floor at hfloor ⊢
      dsimp only
      rw [List.length_append, List.length_singleton]
      omega
  | interleaveEnds nodeId =>
    unfold InterleavingFloor.step at hstep
    dsimp only at hstep
    split_ifs at hstep with hmem
    obtain rfl := Option.some.inj hstep
    have hongoing : nodeId ∈ state.node.ongoingInterleaves.elements :=
      hbooks.ongoing.mem_iff.mpr (List.mem_append_right _ hmem)
    have hdeleted := List.length_erase_of_mem hongoing
    have hsettled := List.length_erase_of_mem hmem
    have hpos := List.length_pos_of_mem hmem
    have hpos' := List.length_pos_of_mem hongoing
    unfold Floor at hfloor ⊢
    dsimp only
    rw [elements_delete, hdeleted, hsettled]
    omega

/-! ### The results -/

/-- What holds of a node that once had two neighbours more than `ongoingInterleaves`: it has two
neighbours, and two more than `ongoingInterleaves` whenever no answer is half dealt with. -/
structure KeepsTwo (state : State DhtAddress) : Prop where
  neighbors : 2 ≤ state.node.neighbors.size []
  beyondInterleaves : state.settled = [] →
    state.node.ongoingInterleaves.elements.length + 2 ≤ state.node.neighbors.size []

/-- No neighbour is asked to interleave while an earlier request to it is not dealt with, and the
sets are empty when nothing is outstanding. -/
structure Orderly (state : State DhtAddress) : Prop where
  askedOnce : (state.interleaves ++ state.settled).Nodup
  noHandshakes : state.calls = [] → state.node.ongoingHandshakes.elements = []
  noInterleaves : state.interleaves = [] → state.settled = [] →
    state.node.ongoingInterleaves.elements = []

omit [DecidableEq DhtAddress] in
theorem Books.orderly (hbooks : Books ownId limit maxNeighborCount state) : Orderly state where
  askedOnce := hbooks.nodup
  noHandshakes := by
    intro hcalls
    refine List.eq_nil_iff_forall_not_mem.mpr fun nodeId hmem ↦ ?_
    obtain ⟨call, hcall, -⟩ := hbooks.held nodeId hmem
    rw [hcalls] at hcall
    cases hcall
  noInterleaves := by
    intro hinterleaves hsettled
    have hperm := hbooks.ongoing
    rw [hinterleaves, hsettled] at hperm
    exact hperm.eq_nil

theorem keepsTwo_of_floor (hbooks : Books ownId limit maxNeighborCount state)
    (hfloor : Floor state) : KeepsTwo state := by
  have hlength := hbooks.ongoing.length_eq
  rw [List.length_append] at hlength
  unfold Floor at hfloor
  constructor
  · rw [NodeList.size_nil]
    omega
  · intro hsettled
    rw [hsettled, List.length_nil] at hfloor
    rw [NodeList.size_nil]
    omega

/-- A node that is full with two neighbours. -/
def twoNeighbors : State ℕ where
  node := ⟨⟨0, 4, ⟨[1, 2], by decide⟩⟩, OrderedSet.empty, OrderedSet.empty, 2⟩
  calls := []
  interleaves := []
  settled := []

theorem reachable_twoNeighbors :
    Reachable step NoOtherRemovals (· = State.new 0 4 2) twoNeighbors := by
  have hother : (0 : ℕ) ≠ 1 := by decide
  have hfirst : Reachable step NoOtherRemovals (· = State.new 0 4 2) _ := .next (.start rfl)
    (by exact hother) (rfl : step (State.new 0 4 2) (.handshakeRequest ⟨[], none⟩ 1) = some _)
  have hsecond := hfirst.next (by trivial) (rfl : step _ (.handshakeWithTarget 2) = some _)
  exact hsecond.next (by trivial)
    (rfl : step _ (.handshakeReturns 0 ⟨true, none⟩) = some twoNeighbors)

/-- It takes a third in exchange for the last of them, which answers. -/
theorem exists_reachable_exchange : ∃ after : State ℕ,
    Reachable step NoOtherRemovals (· = twoNeighbors) after ∧
      after.node.neighbors.getIds = [1, 3] ∧ after.settled = [2] := by
  have hother : (0 : ℕ) ≠ 3 := by decide
  have hthird : Reachable step NoOtherRemovals (· = twoNeighbors) _ := .next (.start rfl)
    (by exact hother) (rfl : step twoNeighbors (.handshakeRequest ⟨[], none⟩ 3) = some _)
  have hafter := hthird.next (by trivial) (rfl : step _ (.interleaveReturns 2 true) = some _)
  exact ⟨_, hafter, by decide, by decide⟩

end PomboStorageNode.TrackerlessNetwork.InterleavingFloor
