import PomboStorageNode.Library.OrderedMap
import PomboStorageNode.Library.Transition
import PomboStorageNode.Operator.ConsistentHashRing
import Mathlib.Data.List.Chain
import Mathlib.Order.MinMax

/-!
# The stream parts of an operator's node

`StreamPartAssignments.ts` knows the nodes of the fleet, in a hash ring that always has its own
node, and the stream parts of the staked streams. After every change it asks the ring for the nodes
of each part, and tells which parts were assigned to its own node and which are not anymore. The
handlers are queued one behind the other, so that an event here is a handler with the outcomes of
its lookups.

What is told always replays to the node's own parts, and these are the parts in `assignments` for
which the ring names the node (`Settled`). The parts in `assignments` come from the lookups: a
stream that is unstaked is looked up again, and the parts that this lookup does not find remain.
`divides_of_reachable` is about runs in which the lookups find them; `part_remains` shows runs in
which they do not.
-/

set_option autoImplicit false

namespace PomboStorageNode.Operator

open Library

variable {DhtAddress : Type} [LinearOrder DhtAddress]

/-- `StreamPartAssignmentEvents`. -/
inductive Emission
  | assigned (streamPartId : StreamPartID)
  | unassigned (streamPartId : StreamPartID)
  deriving DecidableEq

/-- The stream part of an emission. -/
def Emission.streamPartId : Emission → StreamPartID
  | .assigned streamPartId | .unassigned streamPartId => streamPartId

/-- What `getStreamParts` does for a stream: the number of partitions that the stream has at that
time, none when it does not exist, and whether the lookup fails. -/
structure Lookup where
  partitions : ℕ
  fails : Bool

/-- The number of partitions that the lookup finds. -/
def Lookup.found (lookup : Lookup) : ℕ := if lookup.fails then 0 else lookup.partitions

/-- `getStreamPartIds`. -/
def getStreamPartIds (streamId : String) (lookup : Lookup) : List StreamPartID :=
  if lookup.fails then []
  else (List.range lookup.partitions).map fun partition ↦ ⟨streamId, partition⟩

/-- `StreamPartAssignments`, with what it has emitted. -/
structure StreamPartAssignments (DhtAddress : Type) [LinearOrder DhtAddress] where
  assignments : OrderedMap StreamPartID (List DhtAddress)
  myStreamParts : OrderedSet StreamPartID
  consistentHashRing : ConsistentHashRing DhtAddress
  emitted : List Emission

namespace StreamPartAssignments

/-- The constructor. -/
def create (redundancyFactor : ℕ) (myNodeId : DhtAddress) : StreamPartAssignments DhtAddress :=
  ⟨.empty, .empty, (ConsistentHashRing.create redundancyFactor).add myNodeId, []⟩

variable (hashGet : HashGet DhtAddress) (myNodeId : DhtAddress)

local instance lawfulBEq : LawfulBEq DhtAddress := inferInstance

/-- The first loop of `recalculateAssignments`, for one stream part. -/
def assignNodes (state : StreamPartAssignments DhtAddress) (streamPartId : StreamPartID) :
    StreamPartAssignments DhtAddress :=
  let nodeList := (state.consistentHashRing.get hashGet streamPartId).1
  let assigned := { state with
    consistentHashRing := (state.consistentHashRing.get hashGet streamPartId).2
    assignments := state.assignments.set streamPartId nodeList }
  if myNodeId ∈ nodeList ∧ streamPartId ∉ state.myStreamParts then { assigned with
    myStreamParts := state.myStreamParts.add streamPartId
    emitted := state.emitted ++ [.assigned streamPartId] }
  else assigned

/-- A stream part is not the node's own anymore. -/
def unassign (state : StreamPartAssignments DhtAddress) (streamPartId : StreamPartID) :
    StreamPartAssignments DhtAddress :=
  { state with
    myStreamParts := state.myStreamParts.delete streamPartId
    emitted := state.emitted ++ [.unassigned streamPartId] }

/-- The second loop of `recalculateAssignments`, for one stream part. -/
def review (state : StreamPartAssignments DhtAddress) (streamPartId : StreamPartID) :
    StreamPartAssignments DhtAddress :=
  if state.assignments.has streamPartId then
    let asked := { state with
      consistentHashRing := (state.consistentHashRing.get hashGet streamPartId).2 }
    if myNodeId ∈ (state.consistentHashRing.get hashGet streamPartId).1 then asked
    else asked.unassign streamPartId
  else state.unassign streamPartId

/-- `recalculateAssignments`. -/
def recalculateAssignments (state : StreamPartAssignments DhtAddress) :
    StreamPartAssignments DhtAddress :=
  let assigned := state.assignments.keys.foldl (assignNodes hashGet myNodeId) state
  assigned.myStreamParts.elements.foldl (review hashGet myNodeId) assigned

/-- `nodeAdded`. -/
def nodeAdded (state : StreamPartAssignments DhtAddress) (nodeId : DhtAddress) :
    StreamPartAssignments DhtAddress :=
  if nodeId = myNodeId then state
  else recalculateAssignments hashGet myNodeId
    { state with consistentHashRing := state.consistentHashRing.add nodeId }

/-- `nodeRemoved`. -/
def nodeRemoved (state : StreamPartAssignments DhtAddress) (nodeId : DhtAddress) :
    StreamPartAssignments DhtAddress :=
  if nodeId = myNodeId then state
  else recalculateAssignments hashGet myNodeId
    { state with consistentHashRing := state.consistentHashRing.remove nodeId }

/-- `streamsStaked`, for streams with their lookups. -/
def streamsStaked (state : StreamPartAssignments DhtAddress) (streams : List (String × Lookup)) :
    StreamPartAssignments DhtAddress :=
  let streamPartIds := streams.flatMap fun stream ↦ getStreamPartIds stream.1 stream.2
  recalculateAssignments hashGet myNodeId { state with
    assignments := streamPartIds.foldl (fun assignments streamPartId ↦
      assignments.set streamPartId []) state.assignments }

/-- The nodes of a stream part, in `getAssignedNodesForStreamPart`. -/
def assignedNodes (state : StreamPartAssignments DhtAddress) (streamPartId : StreamPartID) :
    List DhtAddress :=
  (state.assignments.get? streamPartId).getD []

/-- `streamUnstaked`. -/
def streamUnstaked (state : StreamPartAssignments DhtAddress) (streamId : String)
    (lookup : Lookup) : StreamPartAssignments DhtAddress :=
  recalculateAssignments hashGet myNodeId { state with
    assignments := (getStreamPartIds streamId lookup).foldl OrderedMap.delete state.assignments }

end StreamPartAssignments

/-! ### What is told replays to the node's own parts -/

/-- The emissions of a stream part, in order. -/
def emissionsOf (streamPartId : StreamPartID) (emitted : List Emission) : List Emission :=
  emitted.filter (·.streamPartId = streamPartId)

/-- Each stream part begins unassigned, each of its emissions differs from the one before, and the
last one says whether it is the node's own. -/
structure Replays (emitted : List Emission) (myStreamParts : OrderedSet StreamPartID) : Prop where
  alternate : ∀ streamPartId,
    (Emission.unassigned streamPartId :: emissionsOf streamPartId emitted).IsChain (· ≠ ·)
  replay : ∀ streamPartId, streamPartId ∈ myStreamParts ↔
    (emissionsOf streamPartId emitted).getLast? = some (.assigned streamPartId)

theorem emissionsOf_append_self (emitted : List Emission) (emission : Emission) :
    emissionsOf emission.streamPartId (emitted ++ [emission]) =
      emissionsOf emission.streamPartId emitted ++ [emission] := by
  simp [emissionsOf]

theorem emissionsOf_append_of_ne {emission : Emission} {other : StreamPartID}
    (emitted : List Emission) (hne : other ≠ emission.streamPartId) :
    emissionsOf other (emitted ++ [emission]) = emissionsOf other emitted := by
  simp [emissionsOf, Ne.symm hne]

namespace Replays

variable {emitted : List Emission} {myStreamParts after : OrderedSet StreamPartID}
  {emission : Emission} {streamPartId : StreamPartID}

theorem nil : Replays [] .empty where
  alternate := fun _ ↦ List.isChain_singleton _
  replay := fun streamPartId ↦ iff_of_false (OrderedSet.notMem_empty streamPartId) nofun

/-- An emission that differs from the last one of its part, and tells what becomes of the part. -/
theorem append (hreplays : Replays emitted myStreamParts)
    (hdiffers : ∀ last ∈ (Emission.unassigned emission.streamPartId ::
      emissionsOf emission.streamPartId emitted).getLast?, last ≠ emission)
    (hself : emission.streamPartId ∈ after ↔ emission = .assigned emission.streamPartId)
    (hothers : ∀ other, other ≠ emission.streamPartId → (other ∈ after ↔ other ∈ myStreamParts)) :
    Replays (emitted ++ [emission]) after where
  alternate := by
    intro other
    by_cases heq : other = emission.streamPartId
    · subst heq
      rw [emissionsOf_append_self, ← List.cons_append]
      refine List.isChain_append.mpr ⟨hreplays.alternate _, List.isChain_singleton _, ?_⟩
      intro last hlast next hnext
      cases hnext
      exact hdiffers last hlast
    · rw [emissionsOf_append_of_ne _ heq]
      exact hreplays.alternate other
  replay := by
    intro other
    by_cases heq : other = emission.streamPartId
    · subst heq
      rw [emissionsOf_append_self, List.getLast?_append, List.getLast?_singleton, Option.some_or,
        Option.some.injEq]
      exact hself
    · rw [emissionsOf_append_of_ne _ heq, hothers other heq]
      exact hreplays.replay other

theorem assigned (hreplays : Replays emitted myStreamParts)
    (hnot : streamPartId ∉ myStreamParts) :
    Replays (emitted ++ [.assigned streamPartId]) (myStreamParts.add streamPartId) := by
  have hdiffers : ∀ last ∈ (Emission.unassigned streamPartId ::
      emissionsOf streamPartId emitted).getLast?, last ≠ .assigned streamPartId := by
    rintro last hlast rfl
    rw [List.getLast?_cons, Option.mem_some_iff] at hlast
    cases hbefore : (emissionsOf streamPartId emitted).getLast? with
    | none =>
      rw [hbefore] at hlast
      cases hlast
    | some before =>
      rw [hbefore, Option.getD_some] at hlast
      exact hnot ((hreplays.replay streamPartId).mpr (hlast ▸ hbefore))
  refine hreplays.append hdiffers ?_ ?_
  · exact iff_of_true (OrderedSet.mem_add.mpr (Or.inl rfl)) rfl
  · intro other hne
    rw [OrderedSet.mem_add]
    exact or_iff_right hne

theorem unassigned (hreplays : Replays emitted myStreamParts)
    (hmem : streamPartId ∈ myStreamParts) :
    Replays (emitted ++ [.unassigned streamPartId]) (myStreamParts.delete streamPartId) := by
  have hdiffers : ∀ last ∈ (Emission.unassigned streamPartId ::
      emissionsOf streamPartId emitted).getLast?, last ≠ .unassigned streamPartId := by
    rintro last hlast rfl
    rw [List.getLast?_cons, Option.mem_some_iff, (hreplays.replay streamPartId).mp hmem] at hlast
    cases hlast
  refine hreplays.append hdiffers ?_ ?_
  · exact iff_of_false (fun hself ↦ (OrderedSet.mem_delete.mp hself).2 rfl) nofun
  · intro other hne
    rw [OrderedSet.mem_delete]
    exact and_iff_left hne

end Replays

/-! ### A recalculation -/

namespace StreamPartAssignments

variable {hashGet : HashGet DhtAddress} {myNodeId : DhtAddress}
  {before middle after : StreamPartAssignments DhtAddress} {streamPartId : StreamPartID}
  {streamPartIds later : List StreamPartID}

/-- The ring names the node for the stream part. -/
def IsNamed (hashGet : HashGet DhtAddress) (myNodeId : DhtAddress)
    (state : StreamPartAssignments DhtAddress) (streamPartId : StreamPartID) : Prop :=
  myNodeId ∈ state.consistentHashRing.names hashGet streamPartId

/-- What the first loop does for some stream parts. -/
structure Assigned (hashGet : HashGet DhtAddress) (myNodeId : DhtAddress)
    (streamPartIds : List StreamPartID) (before after : StreamPartAssignments DhtAddress) :
    Prop where
  get? : ∀ streamPartId, after.assignments.get? streamPartId =
    if streamPartId ∈ streamPartIds then some (before.consistentHashRing.names hashGet streamPartId)
    else before.assignments.get? streamPartId
  mine : ∀ streamPartId, streamPartId ∈ after.myStreamParts ↔
    streamPartId ∈ before.myStreamParts ∨
      (streamPartId ∈ streamPartIds ∧ before.IsNamed hashGet myNodeId streamPartId)
  ring : after.consistentHashRing.Same before.consistentHashRing
  replays : Replays before.emitted before.myStreamParts →
    Replays after.emitted after.myStreamParts

theorem isNamed_congr (hring : after.consistentHashRing.Same before.consistentHashRing) :
    after.IsNamed hashGet myNodeId streamPartId ↔ before.IsNamed hashGet myNodeId streamPartId := by
  rw [IsNamed, IsNamed, ConsistentHashRing.names_eq_of_same hring]

theorem assigned_nil (state : StreamPartAssignments DhtAddress) :
    Assigned hashGet myNodeId [] state state where
  get? := fun _ ↦ (if_neg List.not_mem_nil).symm
  mine := fun _ ↦ (or_iff_left fun hnone ↦ List.not_mem_nil hnone.1).symm
  ring := .refl _
  replays := id

theorem assigned_assignNodes (state : StreamPartAssignments DhtAddress)
    (streamPartId : StreamPartID) :
    Assigned hashGet myNodeId [streamPartId] state
      (state.assignNodes hashGet myNodeId streamPartId) := by
  have hget (other : StreamPartID) : (state.assignments.set streamPartId
      (state.consistentHashRing.names hashGet streamPartId)).get? other =
        if other ∈ [streamPartId] then some (state.consistentHashRing.names hashGet other)
        else state.assignments.get? other := by
    by_cases heq : other = streamPartId
    · subst heq
      rw [OrderedMap.get?_set_self, if_pos (List.mem_singleton_self other)]
    · rw [OrderedMap.get?_set_of_ne _ _ heq, if_neg (List.mem_singleton.not.mpr heq)]
  unfold assignNodes
  dsimp only
  rw [ConsistentHashRing.get_fst]
  split_ifs with hnew
  · refine ⟨hget, fun other ↦ ?_, ConsistentHashRing.same_get_snd _ _,
      fun hreplays ↦ hreplays.assigned hnew.2⟩
    rw [OrderedSet.mem_add, List.mem_singleton, or_comm]
    exact or_congr_right ⟨fun heq ↦ ⟨heq, heq ▸ hnew.1⟩, And.left⟩
  · refine ⟨hget, fun other ↦ ?_, ConsistentHashRing.same_get_snd _ _, id⟩
    refine ⟨Or.inl, fun hor ↦ hor.elim id ?_⟩
    rintro ⟨hself, hnamed⟩
    rw [List.mem_singleton.mp hself] at hnamed ⊢
    exact not_not.mp fun hnot ↦ hnew ⟨hnamed, hnot⟩

theorem Assigned.trans (hfirst : Assigned hashGet myNodeId [streamPartId] before middle)
    (hrest : Assigned hashGet myNodeId later middle after) :
    Assigned hashGet myNodeId (streamPartId :: later) before after where
  get? := by
    intro other
    rw [hrest.get?, hfirst.get?, ConsistentHashRing.names_eq_of_same hfirst.ring]
    by_cases hlater : other ∈ later
    · rw [if_pos hlater, if_pos (List.mem_cons_of_mem _ hlater)]
    · rw [if_neg hlater]
      simp [hlater]
  mine := by
    intro other
    rw [hrest.mine, hfirst.mine, isNamed_congr hfirst.ring, List.mem_singleton, List.mem_cons]
    tauto
  ring := hrest.ring.trans hfirst.ring
  replays := fun hreplays ↦ hrest.replays (hfirst.replays hreplays)

/-- The first loop. -/
theorem assigned_foldl (streamPartIds : List StreamPartID)
    (state : StreamPartAssignments DhtAddress) :
    Assigned hashGet myNodeId streamPartIds state
      (streamPartIds.foldl (assignNodes hashGet myNodeId) state) := by
  induction streamPartIds generalizing state with
  | nil => exact assigned_nil state
  | cons streamPartId later ih =>
    rw [List.foldl_cons]
    exact (assigned_assignNodes state streamPartId).trans (ih _)

/-- What the second loop does for some stream parts. -/
structure Reviewed (hashGet : HashGet DhtAddress) (myNodeId : DhtAddress)
    (streamPartIds : List StreamPartID) (before after : StreamPartAssignments DhtAddress) :
    Prop where
  assignments : after.assignments = before.assignments
  mine : ∀ streamPartId, streamPartId ∈ after.myStreamParts ↔
    streamPartId ∈ before.myStreamParts ∧ (streamPartId ∈ streamPartIds →
      before.assignments.has streamPartId = true ∧ before.IsNamed hashGet myNodeId streamPartId)
  ring : after.consistentHashRing.Same before.consistentHashRing
  replays : Replays before.emitted before.myStreamParts →
    Replays after.emitted after.myStreamParts

theorem reviewed_nil (state : StreamPartAssignments DhtAddress) :
    Reviewed hashGet myNodeId [] state state where
  assignments := rfl
  mine := fun _ ↦ (and_iff_left fun hnone ↦ absurd hnone List.not_mem_nil).symm
  ring := .refl _
  replays := id

theorem reviewed_review {state : StreamPartAssignments DhtAddress} {streamPartId : StreamPartID}
    (hmine : streamPartId ∈ state.myStreamParts) :
    Reviewed hashGet myNodeId [streamPartId] state
      (state.review hashGet myNodeId streamPartId) := by
  have hkept (hassigned : state.assignments.has streamPartId = true)
      (hnamed : state.IsNamed hashGet myNodeId streamPartId) (other : StreamPartID) :
      other ∈ state.myStreamParts ↔ other ∈ state.myStreamParts ∧ (other ∈ [streamPartId] →
        state.assignments.has other = true ∧ state.IsNamed hashGet myNodeId other) := by
    refine (and_iff_left fun hself ↦ ?_).symm
    rw [List.mem_singleton.mp hself]
    exact ⟨hassigned, hnamed⟩
  have hdropped (hnot : ¬ (state.assignments.has streamPartId = true ∧
      state.IsNamed hashGet myNodeId streamPartId)) (other : StreamPartID) :
      other ∈ state.myStreamParts.delete streamPartId ↔
        other ∈ state.myStreamParts ∧ (other ∈ [streamPartId] →
          state.assignments.has other = true ∧ state.IsNamed hashGet myNodeId other) := by
    rw [OrderedSet.mem_delete, List.mem_singleton]
    refine and_congr_right fun _ ↦ ⟨fun hne heq ↦ absurd heq hne, ?_⟩
    rintro himp rfl
    exact hnot (himp rfl)
  unfold review
  dsimp only
  rw [ConsistentHashRing.get_fst]
  split_ifs with hassigned hnamed
  · exact ⟨rfl, hkept hassigned hnamed, ConsistentHashRing.same_get_snd _ _, id⟩
  · exact ⟨rfl, hdropped fun hboth ↦ hnamed hboth.2, ConsistentHashRing.same_get_snd _ _,
      fun hreplays ↦ hreplays.unassigned hmine⟩
  · exact ⟨rfl, hdropped fun hboth ↦ hassigned hboth.1, .refl _,
      fun hreplays ↦ hreplays.unassigned hmine⟩

theorem Reviewed.trans (hfirst : Reviewed hashGet myNodeId [streamPartId] before middle)
    (hrest : Reviewed hashGet myNodeId later middle after) :
    Reviewed hashGet myNodeId (streamPartId :: later) before after where
  assignments := hrest.assignments.trans hfirst.assignments
  mine := by
    intro other
    rw [hrest.mine, hfirst.mine, isNamed_congr hfirst.ring, hfirst.assignments,
      List.mem_singleton, List.mem_cons]
    tauto
  ring := hrest.ring.trans hfirst.ring
  replays := fun hreplays ↦ hrest.replays (hfirst.replays hreplays)

/-- The second loop: a stream part that is still to come is not touched before. -/
theorem reviewed_foldl {streamPartIds : List StreamPartID}
    {state : StreamPartAssignments DhtAddress} (hnodup : streamPartIds.Nodup)
    (hmine : ∀ streamPartId ∈ streamPartIds, streamPartId ∈ state.myStreamParts) :
    Reviewed hashGet myNodeId streamPartIds state
      (streamPartIds.foldl (review hashGet myNodeId) state) := by
  induction streamPartIds generalizing state with
  | nil => exact reviewed_nil state
  | cons streamPartId later ih =>
    rw [List.nodup_cons] at hnodup
    have hfirst : Reviewed hashGet myNodeId [streamPartId] state
        (state.review hashGet myNodeId streamPartId) :=
      reviewed_review (hmine streamPartId List.mem_cons_self)
    rw [List.foldl_cons]
    refine hfirst.trans (ih hnodup.2 fun other hother ↦ (hfirst.mine other).mpr ⟨?_, ?_⟩)
    · exact hmine other (List.mem_cons_of_mem _ hother)
    · intro hself
      exact absurd (List.mem_singleton.mp hself ▸ hother) hnodup.1

/-- What is assigned after a recalculation. -/
structure Recalculated (hashGet : HashGet DhtAddress) (myNodeId : DhtAddress)
    (before after : StreamPartAssignments DhtAddress) : Prop where
  get? : ∀ streamPartId, after.assignments.get? streamPartId =
    if before.assignments.has streamPartId then
      some (before.consistentHashRing.names hashGet streamPartId)
    else none
  mine : ∀ streamPartId, streamPartId ∈ after.myStreamParts ↔
    before.assignments.has streamPartId = true ∧ before.IsNamed hashGet myNodeId streamPartId
  ring : after.consistentHashRing.Same before.consistentHashRing
  replays : Replays before.emitted before.myStreamParts →
    Replays after.emitted after.myStreamParts

theorem recalculated (state : StreamPartAssignments DhtAddress) :
    Recalculated hashGet myNodeId state (state.recalculateAssignments hashGet myNodeId) := by
  obtain ⟨assigned, heq, hassigned⟩ : ∃ assigned,
      state.assignments.keys.foldl (assignNodes hashGet myNodeId) state = assigned ∧
        Assigned hashGet myNodeId state.assignments.keys state assigned :=
    ⟨_, rfl, assigned_foldl state.assignments.keys state⟩
  have hreviewed : Reviewed hashGet myNodeId assigned.myStreamParts.elements assigned
      (assigned.myStreamParts.elements.foldl (review hashGet myNodeId) assigned) :=
    reviewed_foldl assigned.myStreamParts.nodup fun _ ↦ id
  have hget (other : StreamPartID) : assigned.assignments.get? other =
      if state.assignments.has other then
        some (state.consistentHashRing.names hashGet other)
      else none := by
    rw [hassigned.get?, if_congr OrderedMap.has_iff_mem_keys.symm rfl rfl]
    split_ifs with hhas
    · rfl
    · rw [OrderedMap.has] at hhas
      exact Option.not_isSome_iff_eq_none.mp hhas
  unfold recalculateAssignments
  dsimp only
  rw [heq]
  refine ⟨fun other ↦ hreviewed.assignments ▸ hget other, fun other ↦ ?_,
    hreviewed.ring.trans hassigned.ring,
    fun hreplays ↦ hreviewed.replays (hassigned.replays hreplays)⟩
  have hhas : assigned.assignments.has other = true ↔ state.assignments.has other = true := by
    rw [OrderedMap.has, hget]
    split_ifs with hassigned
    · exact iff_of_true rfl hassigned
    · exact iff_of_false Bool.false_ne_true hassigned
  rw [hreviewed.mine, isNamed_congr hassigned.ring, hhas]
  refine ⟨fun hboth ↦ hboth.2 hboth.1, fun hboth ↦ ⟨?_, fun _ ↦ hboth⟩⟩
  exact (hassigned.mine other).mpr (Or.inr ⟨OrderedMap.has_iff_mem_keys.mp hboth.1, hboth.2⟩)

/-- What holds after every handler: the nodes of a part are those that the ring names, and the
node's own parts are the assigned ones for which the ring names the node. -/
structure Settled (hashGet : HashGet DhtAddress) (myNodeId : DhtAddress)
    (state : StreamPartAssignments DhtAddress) : Prop where
  named : ∀ streamPartId nodeIds, state.assignments.get? streamPartId = some nodeIds →
    nodeIds = state.consistentHashRing.names hashGet streamPartId
  mine : ∀ streamPartId, streamPartId ∈ state.myStreamParts ↔
    state.assignments.has streamPartId = true ∧ state.IsNamed hashGet myNodeId streamPartId
  replays : Replays state.emitted state.myStreamParts

theorem Recalculated.has (hrecalculated : Recalculated hashGet myNodeId before after)
    (streamPartId : StreamPartID) :
    after.assignments.has streamPartId = before.assignments.has streamPartId := by
  rw [OrderedMap.has, hrecalculated.get?]
  split_ifs with hhas
  · exact hhas.symm
  · exact (Bool.eq_false_iff.mpr hhas).symm

theorem Recalculated.settled (hrecalculated : Recalculated hashGet myNodeId before after)
    (hreplays : Replays before.emitted before.myStreamParts) : after.Settled hashGet myNodeId where
  named := by
    intro streamPartId nodeIds hget
    rw [hrecalculated.get?] at hget
    split_ifs at hget
    cases hget
    rw [ConsistentHashRing.names_eq_of_same hrecalculated.ring]
  mine := by
    intro streamPartId
    rw [hrecalculated.mine, hrecalculated.has, isNamed_congr hrecalculated.ring]
  replays := hrecalculated.replays hreplays

theorem Settled.assignedNodes_eq {state : StreamPartAssignments DhtAddress}
    (hsettled : state.Settled hashGet myNodeId) (streamPartId : StreamPartID) :
    state.assignedNodes streamPartId =
      if state.assignments.has streamPartId then
        state.consistentHashRing.names hashGet streamPartId
      else [] := by
  rw [assignedNodes, OrderedMap.has]
  cases hget : state.assignments.get? streamPartId with
  | none => rfl
  | some nodeIds => exact hsettled.named streamPartId nodeIds hget

theorem settled_create (redundancyFactor : ℕ) (myNodeId : DhtAddress) :
    (create redundancyFactor myNodeId).Settled hashGet myNodeId where
  named := nofun
  mine := fun streamPartId ↦ iff_of_false (OrderedSet.notMem_empty streamPartId) nofun
  replays := .nil

end StreamPartAssignments

/-! ### Runs -/

/-- An instance, the nodes that it saw, and the streams that are staked, each with the partitions
that it had when it was staked last. An instance always sees its own node. -/
structure State (DhtAddress : Type) [LinearOrder DhtAddress] where
  node : StreamPartAssignments DhtAddress
  nodes : OrderedSet DhtAddress
  staked : OrderedMap String ℕ

/-- What is handled. -/
inductive Event (DhtAddress : Type)
  | nodeAdded (nodeId : DhtAddress)
  | nodeRemoved (nodeId : DhtAddress)
  | streamsStaked (streams : List (String × Lookup))
  | streamUnstaked (streamId : String) (lookup : Lookup)

namespace State

/-- The state at the start. -/
def start (redundancyFactor : ℕ) (myNodeId : DhtAddress) : State DhtAddress :=
  ⟨.create redundancyFactor myNodeId, OrderedSet.empty.add myNodeId, .empty⟩

/-- The state behind a handler. -/
def step (hashGet : HashGet DhtAddress) (myNodeId : DhtAddress) (state : State DhtAddress) :
    Event DhtAddress → Option (State DhtAddress)
  | .nodeAdded nodeId => some { state with
      node := state.node.nodeAdded hashGet myNodeId nodeId
      nodes := state.nodes.add nodeId }
  | .nodeRemoved nodeId => some { state with
      node := state.node.nodeRemoved hashGet myNodeId nodeId
      nodes := if nodeId = myNodeId then state.nodes else state.nodes.delete nodeId }
  | .streamsStaked streams => some { state with
      node := state.node.streamsStaked hashGet myNodeId streams
      staked := streams.foldl (fun staked stream ↦ staked.set stream.1 stream.2.partitions)
        state.staked }
  | .streamUnstaked streamId lookup => some { state with
      node := state.node.streamUnstaked hashGet myNodeId streamId lookup
      staked := state.staked.delete streamId }

/-- The partitions of a stream that is staked, and none of another one. -/
def partitionsOf (staked : OrderedMap String ℕ) (streamId : String) : ℕ :=
  (staked.get? streamId).getD 0

@[simp] theorem partitionsOf_set_self (staked : OrderedMap String ℕ) (streamId : String)
    (partitions : ℕ) : partitionsOf (staked.set streamId partitions) streamId = partitions := by
  rw [partitionsOf, OrderedMap.get?_set_self, Option.getD_some]

@[simp] theorem partitionsOf_set_of_ne (staked : OrderedMap String ℕ) {streamId other : String}
    (partitions : ℕ) (hne : other ≠ streamId) :
    partitionsOf (staked.set streamId partitions) other = partitionsOf staked other := by
  rw [partitionsOf, OrderedMap.get?_set_of_ne _ _ hne, partitionsOf]

@[simp] theorem partitionsOf_delete_self (staked : OrderedMap String ℕ) (streamId : String) :
    partitionsOf (staked.delete streamId) streamId = 0 := by
  rw [partitionsOf, OrderedMap.get?_delete_self, Option.getD_none]

@[simp] theorem partitionsOf_delete_of_ne (staked : OrderedMap String ℕ) {streamId other : String}
    (hne : other ≠ streamId) :
    partitionsOf (staked.delete streamId) other = partitionsOf staked other := by
  rw [partitionsOf, OrderedMap.get?_delete_of_ne _ hne, partitionsOf]

/-- The stream part belongs to a stream that is staked. -/
def IsStaked (state : State DhtAddress) (streamPartId : StreamPartID) : Prop :=
  streamPartId.partition < partitionsOf state.staked streamPartId.streamId

/-- The division of work, for one instance. -/
structure Divides (hashGet : HashGet DhtAddress) (myNodeId : DhtAddress)
    (state : State DhtAddress) : Prop where
  replays : Replays state.node.emitted state.node.myStreamParts
  mine : ∀ streamPartId, streamPartId ∈ state.node.myStreamParts ↔
    state.IsStaked streamPartId ∧
      myNodeId ∈ (state.node.consistentHashRing.get hashGet streamPartId).1
  assigned : ∀ streamPartId,
    state.node.assignments.has streamPartId = true ↔ state.IsStaked streamPartId

/-- Two instances saw the same nodes and staked streams, in any orders. -/
structure SawSame (first second : State DhtAddress) : Prop where
  nodes : first.nodes.elements.Perm second.nodes.elements
  staked : first.staked.keys.Perm second.staked.keys

/-- Two instances found the same partitions for the streams that are staked. -/
def FoundSame (first second : State DhtAddress) : Prop :=
  ∀ streamId ∈ first.staked.keys, first.staked.get? streamId = second.staked.get? streamId

/-- The partitions that were assigned before, with those that the lookup finds, are all that the
stream has. -/
def findsAll : OrderedMap String ℕ → List (String × Lookup) → Bool
  | _, [] => true
  | staked, (streamId, lookup) :: streams =>
    decide (max (partitionsOf staked streamId) lookup.found = lookup.partitions) &&
      findsAll (staked.set streamId lookup.partitions) streams

/-- The condition: a stream that is staked has no partition less than when it was staked before, and
its lookup finds all that are new; the lookup of a stream that is unstaked finds all that it had. -/
def findsParts (state : State DhtAddress) : Event DhtAddress → Bool
  | .nodeAdded _ | .nodeRemoved _ => true
  | .streamsStaked streams => findsAll state.staked streams
  | .streamUnstaked streamId lookup => decide (partitionsOf state.staked streamId ≤ lookup.found)

end State

/-! ### The assigned parts are those of the staked streams -/

section Covers

variable {assignments : OrderedMap StreamPartID (List DhtAddress)} {staked : OrderedMap String ℕ}
  {streamPartId : StreamPartID}

theorem mem_getStreamPartIds {streamId : String} {lookup : Lookup} :
    streamPartId ∈ getStreamPartIds streamId lookup ↔
      streamPartId.streamId = streamId ∧ streamPartId.partition < lookup.found := by
  unfold getStreamPartIds Lookup.found
  split_ifs
  · simp
  · rw [List.mem_map]
    constructor
    · rintro ⟨partition, hpartition, rfl⟩
      exact ⟨rfl, List.mem_range.mp hpartition⟩
    · rintro ⟨rfl, hpartition⟩
      exact ⟨_, List.mem_range.mpr hpartition, rfl⟩

omit [LinearOrder DhtAddress] in
theorem has_foldl_set {streamPartIds : List StreamPartID} :
    (streamPartIds.foldl (fun assignments streamPartId ↦ assignments.set streamPartId [])
        assignments).has streamPartId = true ↔
      streamPartId ∈ streamPartIds ∨ assignments.has streamPartId = true := by
  induction streamPartIds generalizing assignments with
  | nil => simp
  | cons first later ih =>
    rw [List.foldl_cons, ih, OrderedMap.has_set, List.mem_cons]
    tauto

omit [LinearOrder DhtAddress] in
theorem has_foldl_delete {streamPartIds : List StreamPartID} :
    (streamPartIds.foldl OrderedMap.delete assignments).has streamPartId = true ↔
      assignments.has streamPartId = true ∧ streamPartId ∉ streamPartIds := by
  induction streamPartIds generalizing assignments with
  | nil => simp
  | cons first later ih =>
    rw [List.foldl_cons, ih, OrderedMap.has_delete, List.mem_cons]
    tauto

open State

/-- The assigned parts are those of the staked streams. -/
def Covers (assignments : OrderedMap StreamPartID (List DhtAddress))
    (staked : OrderedMap String ℕ) : Prop :=
  ∀ streamPartId, assignments.has streamPartId = true ↔
    streamPartId.partition < partitionsOf staked streamPartId.streamId

omit [LinearOrder DhtAddress] in
theorem Covers.stake {streams : List (String × Lookup)} (hcovers : Covers assignments staked)
    (hfinds : findsAll staked streams = true) :
    Covers ((streams.flatMap fun stream ↦ getStreamPartIds stream.1 stream.2).foldl
        (fun assignments streamPartId ↦ assignments.set streamPartId []) assignments)
      (streams.foldl (fun staked stream ↦ staked.set stream.1 stream.2.partitions) staked) := by
  induction streams generalizing assignments staked with
  | nil => exact hcovers
  | cons stream streams ih =>
    obtain ⟨streamId, lookup⟩ := stream
    rw [findsAll, Bool.and_eq_true, decide_eq_true_eq] at hfinds
    rw [List.flatMap_cons, List.foldl_append, List.foldl_cons]
    refine ih (fun streamPartId ↦ ?_) hfinds.2
    rw [has_foldl_set, mem_getStreamPartIds, hcovers]
    dsimp only
    by_cases heq : streamPartId.streamId = streamId
    · rw [heq, partitionsOf_set_self, ← hfinds.1, lt_max_iff]
      tauto
    · rw [partitionsOf_set_of_ne _ _ heq]
      exact or_iff_right fun hfound ↦ heq hfound.1

omit [LinearOrder DhtAddress] in
theorem Covers.unstake {streamId : String} {lookup : Lookup} (hcovers : Covers assignments staked)
    (hfinds : partitionsOf staked streamId ≤ lookup.found) :
    Covers ((getStreamPartIds streamId lookup).foldl OrderedMap.delete assignments)
      (staked.delete streamId) := by
  intro streamPartId
  rw [has_foldl_delete, mem_getStreamPartIds, hcovers]
  by_cases heq : streamPartId.streamId = streamId
  · rw [heq, partitionsOf_delete_self]
    refine iff_of_false ?_ (Nat.not_lt_zero _)
    rintro ⟨hassigned, hfound⟩
    exact hfound ⟨rfl, Nat.lt_of_lt_of_le hassigned hfinds⟩
  · rw [partitionsOf_delete_of_ne _ heq]
    exact and_iff_left fun hfound ↦ heq hfound.1

end Covers

/-! ### The invariant -/

namespace State

open StreamPartAssignments

variable {hashGet : HashGet DhtAddress} {redundancyFactor : ℕ} {myNodeId : DhtAddress}
  {state after : State DhtAddress} {event : Event DhtAddress}

/-- What every run keeps: the ring has the nodes that the instance saw, its own among them. -/
structure Invariant (hashGet : HashGet DhtAddress) (redundancyFactor : ℕ) (myNodeId : DhtAddress)
    (state : State DhtAddress) : Prop where
  settled : state.node.Settled hashGet myNodeId
  nodes : ∀ nodeId, nodeId ∈ state.node.consistentHashRing.nodes ↔ nodeId ∈ state.nodes
  own : myNodeId ∈ state.nodes
  redundancyFactor : state.node.consistentHashRing.redundancyFactor = redundancyFactor

theorem invariant_start :
    (start redundancyFactor myNodeId).Invariant hashGet redundancyFactor myNodeId where
  settled := settled_create redundancyFactor myNodeId
  nodes := by
    intro nodeId
    have hnone : nodeId ∈ (ConsistentHashRing.create redundancyFactor).nodes ↔
        nodeId ∈ (OrderedSet.empty : OrderedSet DhtAddress) := Iff.rfl
    exact ConsistentHashRing.mem_add.trans ((or_congr_right hnone).trans OrderedSet.mem_add.symm)
  own := OrderedSet.mem_add.mpr (Or.inl rfl)
  redundancyFactor := ConsistentHashRing.redundancyFactor_add

/-- A recalculation behind a change of the ring or of the assignments. -/
theorem invariant_recalculate {changed : StreamPartAssignments DhtAddress}
    (hnode : after.node = changed.recalculateAssignments hashGet myNodeId)
    (hreplays : Replays changed.emitted changed.myStreamParts)
    (hnodes : ∀ nodeId, nodeId ∈ changed.consistentHashRing.nodes ↔ nodeId ∈ after.nodes)
    (hown : myNodeId ∈ after.nodes)
    (hredundancy : changed.consistentHashRing.redundancyFactor = redundancyFactor) :
    after.Invariant hashGet redundancyFactor myNodeId where
  settled := by
    rw [hnode]
    exact (StreamPartAssignments.recalculated changed).settled hreplays
  nodes := by
    intro nodeId
    rw [hnode, (StreamPartAssignments.recalculated changed).ring.nodes.mem_iff]
    exact hnodes nodeId
  own := hown
  redundancyFactor := by
    rw [hnode, (StreamPartAssignments.recalculated changed).ring.redundancyFactor, hredundancy]

theorem Invariant.step (hinvariant : state.Invariant hashGet redundancyFactor myNodeId)
    (hstep : state.step hashGet myNodeId event = some after) :
    after.Invariant hashGet redundancyFactor myNodeId := by
  obtain ⟨hsettled, hnodes, hown, hredundancy⟩ := hinvariant
  cases event with
  | nodeAdded nodeId =>
    cases hstep
    by_cases hmine : nodeId = myNodeId
    · have hsame (other : DhtAddress) : other ∈ state.nodes.add nodeId ↔ other ∈ state.nodes := by
        rw [OrderedSet.mem_add, hmine]
        exact or_iff_right_of_imp fun heq ↦ heq ▸ hown
      rw [nodeAdded, if_pos hmine]
      exact ⟨hsettled, fun other ↦ (hnodes other).trans (hsame other).symm,
        (hsame myNodeId).mpr hown, hredundancy⟩
    · rw [nodeAdded, if_neg hmine]
      refine invariant_recalculate rfl hsettled.replays (fun other ↦ ?_) ?_ ?_
      · rw [ConsistentHashRing.mem_add, OrderedSet.mem_add, hnodes]
      · exact OrderedSet.mem_add.mpr (Or.inr hown)
      · exact ConsistentHashRing.redundancyFactor_add.trans hredundancy
  | nodeRemoved nodeId =>
    cases hstep
    by_cases hmine : nodeId = myNodeId
    · rw [nodeRemoved, if_pos hmine, if_pos hmine]
      exact ⟨hsettled, hnodes, hown, hredundancy⟩
    · rw [nodeRemoved, if_neg hmine, if_neg hmine]
      refine invariant_recalculate rfl hsettled.replays (fun other ↦ ?_) ?_ ?_
      · rw [ConsistentHashRing.mem_remove, OrderedSet.mem_delete, hnodes]
      · exact OrderedSet.mem_delete.mpr ⟨hown, Ne.symm hmine⟩
      · exact ConsistentHashRing.redundancyFactor_remove.trans hredundancy
  | streamsStaked streams =>
    cases hstep
    exact invariant_recalculate rfl hsettled.replays hnodes hown hredundancy
  | streamUnstaked streamId lookup =>
    cases hstep
    exact invariant_recalculate rfl hsettled.replays hnodes hown hredundancy

/-- Under the condition the assigned parts are those of the staked streams. -/
theorem covers_step (hcovers : Covers state.node.assignments state.staked)
    (hfinds : state.findsParts event = true)
    (hstep : state.step hashGet myNodeId event = some after) :
    Covers after.node.assignments after.staked := by
  have hrecalculated (changed : StreamPartAssignments DhtAddress) (staked : OrderedMap String ℕ)
      (hchanged : Covers changed.assignments staked) :
      Covers (changed.recalculateAssignments hashGet myNodeId).assignments staked := by
    intro streamPartId
    rw [(recalculated changed).has]
    exact hchanged streamPartId
  cases event with
  | nodeAdded nodeId =>
    cases hstep
    dsimp only
    unfold nodeAdded
    split_ifs
    · exact hcovers
    · exact hrecalculated _ _ hcovers
  | nodeRemoved nodeId =>
    cases hstep
    dsimp only
    unfold nodeRemoved
    split_ifs
    · exact hcovers
    · exact hrecalculated _ _ hcovers
  | streamsStaked streams =>
    cases hstep
    exact hrecalculated _ _ (hcovers.stake hfinds)
  | streamUnstaked streamId lookup =>
    cases hstep
    exact hrecalculated _ _ (hcovers.unstake (of_decide_eq_true hfinds))

/-- The states of all runs in which every step meets the condition. -/
abbrev Reachable (hashGet : HashGet DhtAddress) (redundancyFactor : ℕ) (myNodeId : DhtAddress) :
    State DhtAddress → Prop :=
  Transition.Reachable (step hashGet myNodeId) (fun state event ↦ state.findsParts event = true)
    (· = start redundancyFactor myNodeId)

theorem Reachable.invariant (hreachable : Reachable hashGet redundancyFactor myNodeId state) :
    state.Invariant hashGet redundancyFactor myNodeId := by
  refine Transition.Reachable.invariant ?_ ?_ hreachable
  · rintro _ rfl
    exact invariant_start
  · intro before event next _ hbefore _ hstep
    exact hbefore.step hstep

theorem covers_start :
    Covers (start redundancyFactor myNodeId).node.assignments
      (start redundancyFactor myNodeId).staked :=
  fun _ ↦ iff_of_false nofun (Nat.not_lt_zero _)

theorem Reachable.covers (hreachable : Reachable hashGet redundancyFactor myNodeId state) :
    Covers state.node.assignments state.staked := by
  refine @Transition.Reachable.invariant _ _ _ _ _
    (fun state ↦ Covers state.node.assignments state.staked) ?_ ?_ _ hreachable
  · rintro _ rfl
    exact covers_start
  · intro before event next _ hbefore hfinds hstep
    exact covers_step hbefore hfinds hstep

theorem divides (hinvariant : state.Invariant hashGet redundancyFactor myNodeId)
    (hcovers : Covers state.node.assignments state.staked) : state.Divides hashGet myNodeId where
  replays := hinvariant.settled.replays
  mine := by
    intro streamPartId
    rw [hinvariant.settled.mine, hcovers, ConsistentHashRing.get_fst]
    rfl
  assigned := hcovers

/-- Instances that saw the same have rings that name the same nodes. -/
theorem SawSame.names_eq {otherNodeId : DhtAddress} {first second : State DhtAddress}
    (hfirst : first.Invariant hashGet redundancyFactor myNodeId)
    (hsecond : second.Invariant hashGet redundancyFactor otherNodeId)
    (hsaw : first.SawSame second) :
    first.node.consistentHashRing.names hashGet = second.node.consistentHashRing.names hashGet := by
  refine ConsistentHashRing.names_eq_of_same ⟨?_, ?_⟩
  · refine (List.perm_ext_iff_of_nodup first.node.consistentHashRing.nodup_nodes
      second.node.consistentHashRing.nodup_nodes).mpr fun nodeId ↦ ?_
    rw [hfirst.nodes, hsecond.nodes]
    exact hsaw.nodes.mem_iff
  · rw [hfirst.redundancyFactor, hsecond.redundancyFactor]

theorem FoundSame.get?_eq {first second : State DhtAddress} (hfound : first.FoundSame second)
    (hsaw : first.SawSame second) (streamId : String) :
    first.staked.get? streamId = second.staked.get? streamId := by
  by_cases hstaked : streamId ∈ first.staked.keys
  · exact hfound streamId hstaked
  · have hother := hsaw.staked.mem_iff.not.mp hstaked
    rw [← OrderedMap.has_iff_mem_keys, OrderedMap.has, Option.not_isSome_iff_eq_none] at hstaked
    rw [← OrderedMap.has_iff_mem_keys, OrderedMap.has, Option.not_isSome_iff_eq_none] at hother
    rw [hstaked, hother]

/-- In every run in which every step meets the condition the work is divided; and instances with the
same nodes and staked streams, for which they found the same partitions, agree on the nodes of every
stream part. -/
theorem divides_of_reachable {otherNodeId : DhtAddress} {first second : State DhtAddress}
    (hfirst : Reachable hashGet redundancyFactor myNodeId first)
    (hsecond : Reachable hashGet redundancyFactor otherNodeId second) :
    first.Divides hashGet myNodeId ∧ (first.SawSame second → first.FoundSame second →
      ∀ streamPartId, first.node.assignedNodes streamPartId =
        second.node.assignedNodes streamPartId) := by
  refine ⟨divides hfirst.invariant hfirst.covers, fun hsaw hfound streamPartId ↦ ?_⟩
  have hhas : first.node.assignments.has streamPartId = true ↔
      second.node.assignments.has streamPartId = true := by
    rw [hfirst.covers, hsecond.covers, partitionsOf, partitionsOf, hfound.get?_eq hsaw]
  rw [hfirst.invariant.settled.assignedNodes_eq, hsecond.invariant.settled.assignedNodes_eq,
    hsaw.names_eq hfirst.invariant hsecond.invariant, if_congr hhas rfl rfl]

/-- What the package returns for the nodes of the unit test. -/
def sampleHashGet : HashGet ℕ := fun nodeIds key _ ↦
  if nodeIds = [0x0000] then some [0x0000]
  else if nodeIds = [0x0000, 0x1111] then
    if key = "0#S3" then some [0x0000] else some [0x1111]
  else if key = "0#S3" then some [0x0000]
  else if key = "1#S3" then some [0x1111]
  else some [0x2222]

/-- Two streams are staked behind two other nodes, and one is unstaked. -/
def firstEvents : List (Event ℕ) :=
  [.nodeAdded 0x1111, .nodeAdded 0x2222, .streamsStaked [("S2", ⟨1, false⟩), ("S3", ⟨3, false⟩)],
    .streamUnstaked "S2" ⟨1, false⟩]

/-- On another node, in another order. -/
def secondEvents : List (Event ℕ) :=
  [.nodeAdded 0x2222, .nodeAdded 0x0000, .streamsStaked [("S3", ⟨3, false⟩)]]

/-- `SawSame` and `FoundSame`, evaluated. -/
def sawAndFoundSame (first second : State ℕ) : Bool :=
  decide (first.nodes.elements.Perm second.nodes.elements) &&
    decide (first.staked.keys.Perm second.staked.keys) && first.staked.keys.all
      fun streamId ↦ decide (first.staked.get? streamId = second.staked.get? streamId)

theorem divides_sample : ∃ first second,
    Transition.checkedRun (step sampleHashGet 0x0000) findsParts (start 1 0x0000) firstEvents =
      some first ∧
    Transition.checkedRun (step sampleHashGet 0x1111) findsParts (start 1 0x1111) secondEvents =
      some second ∧
    first.Divides sampleHashGet 0x0000 ∧
      first.node.assignedNodes ⟨"S3", 2⟩ = second.node.assignedNodes ⟨"S3", 2⟩ := by
  have hsome : (Transition.checkedRun (step sampleHashGet 0x0000) findsParts (start 1 0x0000)
      firstEvents).any (fun first ↦ (Transition.checkedRun (step sampleHashGet 0x1111) findsParts
        (start 1 0x1111) secondEvents).any (sawAndFoundSame first)) = true := by
    decide +kernel
  obtain ⟨first, hfirst, hrest⟩ := (Option.any_eq_true _ _).mp hsome
  obtain ⟨second, hsecond, hsame⟩ := (Option.any_eq_true _ _).mp hrest
  rw [sawAndFoundSame, Bool.and_eq_true, Bool.and_eq_true, decide_eq_true_eq, decide_eq_true_eq,
    List.all_eq_true] at hsame
  obtain ⟨⟨hnodes, hstaked⟩, hfound⟩ := hsame
  obtain ⟨hdivides, hagree⟩ := divides_of_reachable
    (.of_checkedRun _ (fun _ _ hcheck ↦ hcheck) (.start rfl) hfirst)
    (.of_checkedRun _ (fun _ _ hcheck ↦ hcheck) (.start rfl) hsecond)
  exact ⟨first, second, hfirst, hsecond, hdivides, hagree ⟨hnodes, hstaked⟩
    (fun streamId hmem ↦ of_decide_eq_true (hfound streamId hmem)) _⟩

/-- The second partition of the stream is assigned although the stream is not staked, or the other
way round. -/
def isWrong (state : State ℕ) : Bool :=
  state.node.assignments.has ⟨"S3", 1⟩ ^^ decide (1 < partitionsOf state.staked "S3")

theorem exists_not_divides {result : Option (State ℕ)} (hwrong : result.any isWrong = true) :
    ∃ state, result = some state ∧ ¬ state.Divides sampleHashGet 0x0000 := by
  obtain ⟨state, hresult, hstate⟩ := (Option.any_eq_true _ _).mp hwrong
  refine ⟨state, hresult, fun hdivides ↦ ?_⟩
  have hsame : state.node.assignments.has ⟨"S3", 1⟩ =
      decide (1 < partitionsOf state.staked "S3") := by
    rw [Bool.eq_iff_iff, decide_eq_true_eq]
    exact hdivides.assigned ⟨"S3", 1⟩
  rw [isWrong, hsame, Bool.xor_self] at hstate
  cases hstate

/-- The lookup for the unstake fails. -/
def unstakeFails : List (Event ℕ) :=
  [.streamsStaked [("S3", ⟨2, false⟩)], .streamUnstaked "S3" ⟨2, true⟩]

/-- The stream has less partitions when it is unstaked. -/
def unstakeFindsLess : List (Event ℕ) :=
  [.streamsStaked [("S3", ⟨2, false⟩)], .streamUnstaked "S3" ⟨1, false⟩]

/-- The lookup for the stake fails. -/
def stakeFails : List (Event ℕ) := [.streamsStaked [("S3", ⟨2, true⟩)]]

/-- A stream with two partitions is staked. -/
def stakesTwo : List (Event ℕ) := [.nodeAdded 0x1111, .streamsStaked [("S3", ⟨2, false⟩)]]

/-- The stream has three partitions when another node looks it up. -/
def stakesThree : List (Event ℕ) := [.nodeAdded 0x0000, .streamsStaked [("S3", ⟨3, false⟩)]]

/-- The nodes of the third partition differ. -/
def disagree (first second : State ℕ) : Bool :=
  decide (first.nodes.elements.Perm second.nodes.elements) &&
    decide (first.staked.keys.Perm second.staked.keys) &&
    decide (first.node.assignedNodes ⟨"S3", 2⟩ ≠ second.node.assignedNodes ⟨"S3", 2⟩)

/-- A part remains assigned behind the unstake of its stream, or is not assigned although its stream
is staked; and two instances that saw the same disagree on the nodes of a part. -/
theorem part_remains :
    (∃ state, Transition.run (step sampleHashGet 0x0000) (start 1 0x0000) unstakeFails =
      some state ∧ ¬ state.Divides sampleHashGet 0x0000) ∧
    (∃ state, Transition.run (step sampleHashGet 0x0000) (start 1 0x0000) unstakeFindsLess =
      some state ∧ ¬ state.Divides sampleHashGet 0x0000) ∧
    (∃ state, Transition.run (step sampleHashGet 0x0000) (start 1 0x0000) stakeFails =
      some state ∧ ¬ state.Divides sampleHashGet 0x0000) ∧
    ∃ first second, Transition.run (step sampleHashGet 0x0000) (start 1 0x0000) stakesTwo =
        some first ∧
      Transition.run (step sampleHashGet 0x1111) (start 1 0x1111) stakesThree = some second ∧
      first.SawSame second ∧
        first.node.assignedNodes ⟨"S3", 2⟩ ≠ second.node.assignedNodes ⟨"S3", 2⟩ := by
  refine ⟨exists_not_divides (by decide +kernel), exists_not_divides (by decide +kernel),
    exists_not_divides (by decide +kernel), ?_⟩
  have hsome : (Transition.run (step sampleHashGet 0x0000) (start 1 0x0000) stakesTwo).any
      (fun first ↦ (Transition.run (step sampleHashGet 0x1111) (start 1 0x1111) stakesThree).any
        (disagree first)) = true := by
    decide +kernel
  obtain ⟨first, hfirst, hrest⟩ := (Option.any_eq_true _ _).mp hsome
  obtain ⟨second, hsecond, hdisagree⟩ := (Option.any_eq_true _ _).mp hrest
  rw [disagree, Bool.and_eq_true, Bool.and_eq_true, decide_eq_true_eq, decide_eq_true_eq,
    decide_eq_true_eq] at hdisagree
  obtain ⟨⟨hnodes, hstaked⟩, hdiffers⟩ := hdisagree
  exact ⟨first, second, hfirst, hsecond, ⟨hnodes, hstaked⟩, hdiffers⟩

end State

end PomboStorageNode.Operator
