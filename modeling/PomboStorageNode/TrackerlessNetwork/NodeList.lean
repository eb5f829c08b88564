import PomboStorageNode.Library.OrderedMap

/-!
# Lists of nodes

`NodeList.ts`, the list of the neighbours of a node: nodes in insertion order, at most `limit` of
them and never the node itself. A remote is known by the id of its peer descriptor.
-/

set_option autoImplicit false

namespace PomboStorageNode.TrackerlessNetwork

open Library

/-- `NodeList`. -/
structure NodeList (DhtAddress : Type*) where
  ownId : DhtAddress
  limit : Nat
  nodes : OrderedSet DhtAddress

namespace NodeList

variable {DhtAddress : Type*}

/-- A new list. -/
def create (ownId : DhtAddress) (limit : Nat) : NodeList DhtAddress :=
  ⟨ownId, limit, OrderedSet.empty⟩

/-- `getIds`. -/
def getIds (list : NodeList DhtAddress) : List DhtAddress := list.nodes.elements

variable [DecidableEq DhtAddress]

/-- `has`. -/
def has (list : NodeList DhtAddress) (nodeId : DhtAddress) : Bool := nodeId ∈ list.nodes

/-- The nodes that are not excluded. -/
def included (list : NodeList DhtAddress) (exclude : List DhtAddress) : List DhtAddress :=
  list.getIds.filter (· ∉ exclude)

/-- `size`. -/
def size (list : NodeList DhtAddress) (exclude : List DhtAddress) : Nat :=
  (list.included exclude).length

/-- `getFirst`. -/
def getFirst (list : NodeList DhtAddress) (exclude : List DhtAddress) : Option DhtAddress :=
  (list.included exclude).head?

/-- `getLast`. -/
def getLast (list : NodeList DhtAddress) (exclude : List DhtAddress) : Option DhtAddress :=
  (list.included exclude).getLast?

/-- `add`. -/
def add (list : NodeList DhtAddress) (nodeId : DhtAddress) : NodeList DhtAddress :=
  if list.ownId ≠ nodeId ∧ list.nodes.elements.length < list.limit then
    { list with nodes := list.nodes.add nodeId }
  else list

/-- `remove`; whether the event `nodeRemoved` is emitted is `has` before it. -/
def remove (list : NodeList DhtAddress) (nodeId : DhtAddress) : NodeList DhtAddress :=
  { list with nodes := list.nodes.delete nodeId }

theorem has_iff {list : NodeList DhtAddress} {nodeId : DhtAddress} :
    list.has nodeId = true ↔ nodeId ∈ list.getIds := by
  rw [has, decide_eq_true_eq]
  rfl

@[simp] theorem included_nil (list : NodeList DhtAddress) : list.included [] = list.getIds := by
  simp [included]

@[simp] theorem size_nil (list : NodeList DhtAddress) : list.size [] = list.getIds.length := by
  rw [size, included_nil]

@[simp] theorem mem_getIds_remove {list : NodeList DhtAddress} {nodeId other : DhtAddress} :
    other ∈ (list.remove nodeId).getIds ↔ other ∈ list.getIds ∧ other ≠ nodeId :=
  OrderedSet.mem_delete

/-- A removal takes one node away at most. -/
theorem le_length_getIds_remove {list : NodeList DhtAddress} {nodeId : DhtAddress} {bound : ℕ}
    (hbound : bound < list.getIds.length) : bound ≤ (list.remove nodeId).getIds.length := by
  have herase : (list.remove nodeId).getIds = list.getIds.erase nodeId := by
    rw [getIds, getIds, list.nodes.nodup.erase_eq_filter nodeId]
    exact List.filter_congr fun other _ ↦ by by_cases heq : other = nodeId <;> simp [heq]
  have hle : list.getIds.length - 1 ≤ (list.getIds.erase nodeId).length := List.le_length_erase
  rw [herase]
  omega

/-- The nodes behind an `add`. -/
theorem mem_getIds_add {list : NodeList DhtAddress} {nodeId other : DhtAddress}
    (hmem : other ∈ (list.add nodeId).getIds) : other = nodeId ∨ other ∈ list.getIds := by
  rw [add] at hmem
  split_ifs at hmem
  · exact OrderedSet.mem_add.mp hmem
  · exact Or.inr hmem

/-- An `add` keeps the nodes. -/
theorem mem_getIds_add_of_mem {list : NodeList DhtAddress} {nodeId other : DhtAddress}
    (hmem : other ∈ list.getIds) : other ∈ (list.add nodeId).getIds := by
  rw [add]
  split_ifs
  · exact OrderedSet.mem_add.mpr (Or.inr hmem)
  · exact hmem

/-- A node that is not the own one is in the list after an `add` when there is room for it. -/
theorem mem_getIds_add_self {list : NodeList DhtAddress} {nodeId : DhtAddress}
    (hown : list.ownId ≠ nodeId)
    (hroom : nodeId ∈ list.getIds ∨ list.getIds.length < list.limit) :
    nodeId ∈ (list.add nodeId).getIds := by
  rcases hroom with hmem | hlimit
  · exact mem_getIds_add_of_mem hmem
  · rw [add, if_pos ⟨hown, hlimit⟩]
    exact OrderedSet.mem_add.mpr (Or.inl rfl)

end NodeList

end PomboStorageNode.TrackerlessNetwork
