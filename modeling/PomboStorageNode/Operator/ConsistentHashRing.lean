import Mathlib.Data.List.Sort

/-!
# The ring that divides stream parts between nodes

`ConsistentHashRing.ts` wraps the package `consistent-hash`: it sorts the nodes before it adds them
to a new hash ring, and keeps that ring until the nodes change. The package is the parameter
`hashGet`, a function of the nodes in the order in which they were added, the key and the number of
nodes to return. `names_eq_of_perm` is the reason for the wrapper: the order in which the nodes came
does not matter.
-/

set_option autoImplicit false

namespace PomboStorageNode.Operator

/-- `StreamPartID`, by its parts. -/
structure StreamPartID where
  streamId : String
  partition : ℕ
  deriving DecidableEq

/-- `formKey`. -/
def formKey (streamPartId : StreamPartID) : String :=
  s!"{streamPartId.partition}#{streamPartId.streamId}"

/-- What the package returns for the nodes that were added, a key and a number of nodes. -/
abbrev HashGet (DhtAddress : Type) : Type :=
  List DhtAddress → String → ℕ → Option (List DhtAddress)

variable {DhtAddress : Type} [LinearOrder DhtAddress]

/-- `ConsistentHashRing`. A ring of the package is the list of the nodes that were added to it. -/
structure ConsistentHashRing (DhtAddress : Type) [LinearOrder DhtAddress] where
  nodes : List DhtAddress
  consistentHash : Option (List DhtAddress)
  redundancyFactor : ℕ
  nodup_nodes : nodes.Nodup
  added : ∀ nodeIds, consistentHash = some nodeIds → nodeIds = nodes.insertionSort (· ≤ ·)

namespace ConsistentHashRing

/-- A ring without nodes. -/
def create (redundancyFactor : ℕ) : ConsistentHashRing DhtAddress where
  nodes := []
  consistentHash := none
  redundancyFactor := redundancyFactor
  nodup_nodes := List.nodup_nil
  added := nofun

/-- `add`. -/
def add (ring : ConsistentHashRing DhtAddress) (nodeId : DhtAddress) :
    ConsistentHashRing DhtAddress :=
  if hmem : nodeId ∈ ring.nodes then ring
  else { ring with
    nodes := ring.nodes ++ [nodeId]
    consistentHash := none
    nodup_nodes := List.concat_eq_append ▸ List.Nodup.concat hmem ring.nodup_nodes
    added := nofun }

/-- `remove`. -/
def remove (ring : ConsistentHashRing DhtAddress) (nodeId : DhtAddress) :
    ConsistentHashRing DhtAddress :=
  if nodeId ∈ ring.nodes then { ring with
    nodes := ring.nodes.erase nodeId
    consistentHash := none
    nodup_nodes := ring.nodup_nodes.erase nodeId
    added := nofun }
  else ring

/-- The package's ring of all nodes, which `get` builds when there is none. -/
def rebuilt (ring : ConsistentHashRing DhtAddress) : ConsistentHashRing DhtAddress where
  nodes := ring.nodes.insertionSort (· ≤ ·)
  consistentHash := some (ring.nodes.insertionSort (· ≤ ·))
  redundancyFactor := ring.redundancyFactor
  nodup_nodes := (List.perm_insertionSort _ _).nodup_iff.mpr ring.nodup_nodes
  added := by
    intro nodeIds hsome
    cases hsome
    exact ((List.pairwise_insertionSort (· ≤ ·) ring.nodes).insertionSort_eq).symm

/-- `get`: the nodes for a stream part, and the ring behind it. -/
def get (hashGet : HashGet DhtAddress) (ring : ConsistentHashRing DhtAddress)
    (streamPartId : StreamPartID) : List DhtAddress × ConsistentHashRing DhtAddress :=
  match ring.consistentHash with
  | some nodeIds => ((hashGet nodeIds (formKey streamPartId) ring.redundancyFactor).getD [], ring)
  | none => ((hashGet (ring.nodes.insertionSort (· ≤ ·)) (formKey streamPartId)
      ring.redundancyFactor).getD [], ring.rebuilt)

/-! ### The nodes decide -/

/-- The nodes that the ring names for a stream part. -/
def names (hashGet : HashGet DhtAddress) (ring : ConsistentHashRing DhtAddress)
    (streamPartId : StreamPartID) : List DhtAddress :=
  (hashGet (ring.nodes.insertionSort (· ≤ ·)) (formKey streamPartId) ring.redundancyFactor).getD []

/-- Two rings with the same nodes, in any order, and the same redundancy. -/
structure Same (first second : ConsistentHashRing DhtAddress) : Prop where
  nodes : first.nodes.Perm second.nodes
  redundancyFactor : first.redundancyFactor = second.redundancyFactor

variable {hashGet : HashGet DhtAddress} {ring first second third : ConsistentHashRing DhtAddress}
  {nodeId other : DhtAddress} {streamPartId : StreamPartID}

theorem Same.refl (ring : ConsistentHashRing DhtAddress) : Same ring ring := ⟨.refl _, rfl⟩

theorem Same.trans (hfirst : Same first second) (hsecond : Same second third) :
    Same first third :=
  ⟨hfirst.nodes.trans hsecond.nodes, hfirst.redundancyFactor.trans hsecond.redundancyFactor⟩

/-- Rings with the same nodes name the same nodes for every stream part. -/
theorem names_eq_of_same (hsame : Same first second) :
    first.names hashGet = second.names hashGet := by
  have hsorted : first.nodes.insertionSort (· ≤ ·) = second.nodes.insertionSort (· ≤ ·) := by
    refine List.Perm.eq_of_pairwise' (List.pairwise_insertionSort (· ≤ ·) _)
      (List.pairwise_insertionSort (· ≤ ·) _) ?_
    calc first.nodes.insertionSort (· ≤ ·)
      List.Perm _ first.nodes := List.perm_insertionSort _ _
      List.Perm _ second.nodes := hsame.nodes
      List.Perm _ (second.nodes.insertionSort (· ≤ ·)) := (List.perm_insertionSort _ _).symm
  funext streamPartId
  rw [names, names, hsorted, hsame.redundancyFactor]

theorem get_fst (ring : ConsistentHashRing DhtAddress) (streamPartId : StreamPartID) :
    (ring.get hashGet streamPartId).1 = ring.names hashGet streamPartId := by
  unfold get
  cases hcached : ring.consistentHash with
  | none => rfl
  | some nodeIds =>
    rw [ring.added nodeIds hcached]
    rfl

theorem same_get_snd (ring : ConsistentHashRing DhtAddress) (streamPartId : StreamPartID) :
    Same (ring.get hashGet streamPartId).2 ring := by
  unfold get
  cases ring.consistentHash with
  | none => exact ⟨List.perm_insertionSort _ _, rfl⟩
  | some nodeIds => exact Same.refl ring

theorem mem_add : other ∈ (ring.add nodeId).nodes ↔ other = nodeId ∨ other ∈ ring.nodes := by
  unfold add
  split_ifs with hmem
  · exact ⟨Or.inr, fun hor ↦ hor.elim (fun heq ↦ heq ▸ hmem) id⟩
  · rw [List.mem_append, List.mem_singleton, or_comm]

theorem mem_remove : other ∈ (ring.remove nodeId).nodes ↔ other ∈ ring.nodes ∧ other ≠ nodeId := by
  unfold remove
  split_ifs with hmem
  · rw [ring.nodup_nodes.mem_erase_iff, and_comm]
  · exact ⟨fun hother ↦ ⟨hother, fun heq ↦ hmem (heq ▸ hother)⟩, And.left⟩

@[simp] theorem redundancyFactor_add :
    (ring.add nodeId).redundancyFactor = ring.redundancyFactor := by
  unfold add
  split_ifs <;> rfl

@[simp] theorem redundancyFactor_remove :
    (ring.remove nodeId).redundancyFactor = ring.redundancyFactor := by
  unfold remove
  split_ifs <;> rfl

end ConsistentHashRing

end PomboStorageNode.Operator
