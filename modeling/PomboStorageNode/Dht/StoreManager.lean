import PomboStorageNode.Dht.LocalDataStore
import PomboStorageNode.Dht.SortedContactList
import PomboStorageNode.Library.LeastKeys
import PomboStorageNode.Library.Throwing

/-!
# Replication to new neighbours

When a node gets a new neighbour, `StoreManager.ts` looks at each key that it has stored. The
storers of a key are the closest ones of the neighbours and the node itself. Where the node was the
first of them without the new neighbour, it replicates the entries to the new neighbour if that is a
storer, and where the node is no storer any more its entries become stale.

The storers without the new neighbour are what is left of the storers, and nothing is left when the
new neighbour is the only one. Then the comparison of the first of them with the node throws, and
the keys behind are not looked at (`updates_iff`, `processes_iff`).
-/

set_option autoImplicit false

namespace PomboStorageNode.Dht.StoreManager

open Library

variable {Data Remote : Type} {Distance : Type*} [LinearOrder Distance]

/-- `StoreManagerOptions`: the parts that decide on replication. -/
structure StoreManagerOptions (Remote : Type) where
  localPeerDescriptor : Contact DhtAddress Remote
  neighbors : List (Contact DhtAddress Remote)
  redundancyFactor : ℕ
  redundancyFactor_ne_zero : redundancyFactor ≠ 0

/-- What was thrown. -/
inductive StoreManagerError
  | typeError
  deriving DecidableEq

/-- The data store, and the callbacks of `setImmediate`: each replicates the entries of a key to a
node. -/
structure State (Data Remote : Type) where
  localDataStore : LocalDataStore Data
  immediates : List (DhtAddress × Contact DhtAddress Remote)

/-- What a callback sends when it runs: a request for each entry. -/
def runImmediate (store : LocalDataStore Data)
    (immediate : DhtAddress × Contact DhtAddress Remote) :
    List (DataEntry Data × Contact DhtAddress Remote) :=
  (store.values immediate.1).map fun dataEntry ↦ (dataEntry, immediate.2)

/-- `areEqualPeerDescriptors`, of which the first argument may be `undefined`. -/
def areEqualPeerDescriptors (peerDescriptor1 : Option (Contact DhtAddress Remote))
    (peerDescriptor2 : Contact DhtAddress Remote) :
    Throwing StoreManagerError (State Data Remote) Bool :=
  match peerDescriptor1 with
  | some peerDescriptor1 => pure (peerDescriptor1.nodeId = peerDescriptor2.nodeId)
  | none => throw .typeError

/-- The options of `getClosestNodes` in `getStorers`. -/
def storersOptions (options : StoreManagerOptions Remote) : ClosestNodesOptions DhtAddress where
  maxCount := some options.redundancyFactor
  excludedNodeIds := []
  maxCount_ne_zero := fun hzero ↦ options.redundancyFactor_ne_zero (Option.some.inj hzero)

/-- The neighbours and the node itself. -/
def candidates (options : StoreManagerOptions Remote) : List (Contact DhtAddress Remote) :=
  options.neighbors ++ [options.localPeerDescriptor]

variable (getPeerDistance : DhtAddress → DhtAddress → Distance)

/-- `getStorers`. -/
def getStorers (options : StoreManagerOptions Remote) (dataKey : DhtAddress) :
    List (Contact DhtAddress Remote) :=
  getClosestNodes getPeerDistance dataKey (candidates options) (storersOptions options)

/-- `replicateAndUpdateStaleState`. -/
def replicateAndUpdateStaleState (options : StoreManagerOptions Remote)
    (newNode : Contact DhtAddress Remote) (dataKey : DhtAddress) :
    Throwing StoreManagerError (State Data Remote) PUnit := do
  let storers := getStorers getPeerDistance options dataKey
  let storersBeforeContactAdded := storers.filter (·.nodeId ≠ newNode.nodeId)
  let selfWasPrimaryStorer ←
    areEqualPeerDescriptors storersBeforeContactAdded.head? options.localPeerDescriptor
  if selfWasPrimaryStorer then
    if storers.any (·.nodeId = newNode.nodeId) then
      modify fun state ↦ { state with immediates := state.immediates ++ [(dataKey, newNode)] }
  else if !storers.any (·.nodeId = options.localPeerDescriptor.nodeId) then
    modify fun state ↦
      { state with localDataStore := state.localDataStore.setAllEntriesAsStale dataKey }

/-- `onContactAdded`. -/
def onContactAdded (options : StoreManagerOptions Remote)
    (peerDescriptor : Contact DhtAddress Remote) :
    Throwing StoreManagerError (State Data Remote) PUnit := do
  let state ← get
  state.localDataStore.keys.forM
    (replicateAndUpdateStaleState getPeerDistance options peerDescriptor)

/-! ### What should happen -/

/-- A node is a storer of a key: it is one of the candidates, and fewer than `redundancyFactor` of
them are closer. -/
def IsStorer (options : StoreManagerOptions Remote) (dataKey nodeId : DhtAddress) : Prop :=
  nodeId ∈ ((candidates options).map Contact.nodeId).toFinset ∧
    {other ∈ ((candidates options).map Contact.nodeId).toFinset |
      getPeerDistance dataKey other < getPeerDistance dataKey nodeId}.card <
        options.redundancyFactor

/-- The node itself was the closest one without the new one. -/
def WasPrimaryStorer (options : StoreManagerOptions Remote) (newNode : Contact DhtAddress Remote)
    (dataKey : DhtAddress) : Prop :=
  options.localPeerDescriptor.nodeId ≠ newNode.nodeId ∧
    ∀ other ∈ candidates options, other.nodeId ≠ newNode.nodeId →
      getPeerDistance dataKey options.localPeerDescriptor.nodeId ≤
        getPeerDistance dataKey other.nodeId

instance (options : StoreManagerOptions Remote) (dataKey nodeId : DhtAddress) :
    Decidable (IsStorer getPeerDistance options dataKey nodeId) :=
  inferInstanceAs (Decidable (_ ∧ _))

instance (options : StoreManagerOptions Remote) (newNode : Contact DhtAddress Remote)
    (dataKey : DhtAddress) : Decidable (WasPrimaryStorer getPeerDistance options newNode dataKey) :=
  inferInstanceAs (Decidable (_ ∧ ∀ _ ∈ _, _))

/-- What should happen for a key: the entries are replicated if the node was the closest one without
the new one, which is a storer, and become stale if the node is no storer. -/
def update (options : StoreManagerOptions Remote) (newNode : Contact DhtAddress Remote)
    (state : State Data Remote) (dataKey : DhtAddress) : State Data Remote where
  localDataStore :=
    if IsStorer getPeerDistance options dataKey options.localPeerDescriptor.nodeId then
      state.localDataStore
    else state.localDataStore.setAllEntriesAsStale dataKey
  immediates := state.immediates ++
    if WasPrimaryStorer getPeerDistance options newNode dataKey ∧
        IsStorer getPeerDistance options dataKey newNode.nodeId then [(dataKey, newNode)] else []

/-- There is another storer than the new node: another candidate is closer, or there are several
storers and another candidate. -/
def HasOtherStorer (options : StoreManagerOptions Remote) (newNode : Contact DhtAddress Remote)
    (dataKey : DhtAddress) : Prop :=
  ∃ other ∈ candidates options, other.nodeId ≠ newNode.nodeId ∧
    (2 ≤ options.redundancyFactor ∨
      getPeerDistance dataKey other.nodeId < getPeerDistance dataKey newNode.nodeId)

section Storers

variable {getPeerDistance} {options : StoreManagerOptions Remote}
  {newNode : Contact DhtAddress Remote} {dataKey : DhtAddress}

/-- The ids of the storers are the closest ones of the candidates. -/
theorem least_getStorers (getPeerDistance : DhtAddress → DhtAddress → Distance)
    (options : StoreManagerOptions Remote) (dataKey : DhtAddress) :
    Least (getPeerDistance dataKey) options.redundancyFactor
      (· ∈ ((candidates options).map Contact.nodeId).toFinset)
      ((getStorers getPeerDistance options dataKey).map Contact.nodeId) := by
  refine (least_getClosestNodes getPeerDistance dataKey (candidates options)
    (storersOptions options)).congr fun id ↦ ?_
  rw [List.mem_toFinset]
  exact and_iff_left List.not_mem_nil

theorem mem_candidates {other : Contact DhtAddress Remote} (hmem : other ∈ candidates options) :
    other.nodeId ∈ ((candidates options).map Contact.nodeId).toFinset :=
  List.mem_toFinset.mpr (List.mem_map_of_mem hmem)

theorem mem_getStorers_iff (hinjective : Function.Injective (getPeerDistance dataKey))
    {nodeId : DhtAddress} :
    nodeId ∈ (getStorers getPeerDistance options dataKey).map Contact.nodeId ↔
      IsStorer getPeerDistance options dataKey nodeId :=
  (least_getStorers getPeerDistance options dataKey).mem_iff_card_lt
    fun _ _ _ _ hsame ↦ hinjective hsame

theorem any_getStorers (hinjective : Function.Injective (getPeerDistance dataKey))
    (nodeId : DhtAddress) :
    ((getStorers getPeerDistance options dataKey).any (·.nodeId = nodeId)) =
      decide (IsStorer getPeerDistance options dataKey nodeId) := by
  rw [Bool.eq_iff_iff, List.any_eq_true, decide_eq_true_eq, ← mem_getStorers_iff hinjective,
    List.mem_map]
  simp only [decide_eq_true_eq]

/-- The storers without the new node are none if and only if there is no other storer. -/
theorem storersBefore_ne_nil_iff (hinjective : Function.Injective (getPeerDistance dataKey))
    (hnew : newNode ∈ candidates options) :
    (getStorers getPeerDistance options dataKey).filter (·.nodeId ≠ newNode.nodeId) ≠ [] ↔
      HasOtherStorer getPeerDistance options newNode dataKey := by
  have hleast := least_getStorers getPeerDistance options dataKey
  have hlength : ((getStorers getPeerDistance options dataKey).map Contact.nodeId).length =
    (getStorers getPeerDistance options dataKey).length := List.length_map _
  rw [ne_eq, List.filter_eq_nil_iff, not_forall]
  simp only [decide_eq_true_eq, not_not, Classical.not_imp]
  constructor
  · rintro ⟨storer, hstorer, hne⟩
    refine ⟨storer, mem_of_mem_getClosestNodes hstorer, hne, ?_⟩
    by_contra hnot
    rw [not_or, not_le, not_lt] at hnot
    -- the new node would have to be left out for a storer that is not closer
    have hmem : storer.nodeId ∈ (getStorers getPeerDistance options dataKey).map Contact.nodeId :=
      List.mem_map_of_mem hstorer
    have hout : newNode.nodeId ∉
        (getStorers getPeerDistance options dataKey).map Contact.nodeId := fun hin ↦ by
      have hpair := (List.nodup_cons.mpr ⟨List.mem_singleton.not.mpr hne,
        List.nodup_singleton newNode.nodeId⟩).length_le_of_subset (List.cons_subset.mpr
          ⟨hmem, fun _ hlast ↦ List.mem_singleton.mp hlast ▸ hin⟩)
      have hle := hleast.length_le
      rw [List.length_cons, List.length_singleton] at hpair
      omega
    have hle := (hleast.left_out _ (mem_candidates hnew) hout).2 _ hmem
    exact hne (hinjective (le_antisymm hle hnot.2))
  · rintro ⟨other, hother, hne, hcloser⟩
    by_contra hnone
    push Not at hnone
    have hall : (getStorers getPeerDistance options dataKey).map Contact.nodeId ⊆
        [newNode.nodeId] := fun id hid ↦ by
      obtain ⟨storer, hstorer, rfl⟩ := List.mem_map.mp hid
      exact List.mem_singleton.mpr (hnone storer hstorer)
    have hone := hleast.nodup.length_le_of_subset hall
    obtain ⟨hfull, hle⟩ := hleast.left_out other.nodeId (mem_candidates hother) fun hin ↦
      hne (List.mem_singleton.mp (hall hin))
    rw [hfull, List.length_singleton] at hone
    have hpositive := options.redundancyFactor_ne_zero
    obtain ⟨id, hid⟩ := List.exists_mem_of_length_pos (hfull ▸ Nat.pos_of_ne_zero hpositive)
    have hidLe := hle id hid
    rw [List.mem_singleton.mp (hall hid)] at hidLe
    rcases hcloser with hmany | hlt
    · omega
    · exact hidLe.not_gt hlt

/-- The first storer without the new node is the node itself if and only if that was the closest
one. -/
theorem head_eq_iff (hinjective : Function.Injective (getPeerDistance dataKey))
    {first : Contact DhtAddress Remote} {rest : List (Contact DhtAddress Remote)}
    (hbefore : (getStorers getPeerDistance options dataKey).filter
      (·.nodeId ≠ newNode.nodeId) = first :: rest) :
    first.nodeId = options.localPeerDescriptor.nodeId ↔
      WasPrimaryStorer getPeerDistance options newNode dataKey := by
  have hleast := least_getStorers getPeerDistance options dataKey
  have hfirst : first ∈ (getStorers getPeerDistance options dataKey).filter
      (·.nodeId ≠ newNode.nodeId) := hbefore ▸ List.mem_cons_self
  obtain ⟨hstorer, hne⟩ := List.mem_filter.mp hfirst
  rw [decide_eq_true_eq] at hne
  -- the first one is the closest of all but the new node
  have hclosest (other : Contact DhtAddress Remote) (hother : other ∈ candidates options)
      (hotherNe : other.nodeId ≠ newNode.nodeId) :
      getPeerDistance dataKey first.nodeId ≤ getPeerDistance dataKey other.nodeId := by
    by_cases hin : other.nodeId ∈ (getStorers getPeerDistance options dataKey).map Contact.nodeId
    · obtain ⟨storer, hmem, hsame⟩ := List.mem_map.mp hin
      have hsorted := (List.pairwise_map.mp hleast.sorted).filter (·.nodeId ≠ newNode.nodeId)
      have hkept : storer ∈ first :: rest := hbefore ▸ List.mem_filter.mpr
        ⟨hmem, decide_eq_true (hsame ▸ hotherNe)⟩
      rw [hbefore] at hsorted
      rw [← hsame]
      rcases List.mem_cons.mp hkept with rfl | hrest
      · exact le_rfl
      · exact (List.pairwise_cons.mp hsorted).1 storer hrest
    · exact (hleast.left_out _ (mem_candidates hother) hin).2 _ (List.mem_map_of_mem hstorer)
  constructor
  · exact fun hsame ↦ ⟨hsame ▸ hne, fun other hother hotherNe ↦
      hsame ▸ hclosest other hother hotherNe⟩
  · rintro ⟨hlocalNe, hlocal⟩
    have hmem : options.localPeerDescriptor ∈ candidates options :=
      List.mem_append_right _ List.mem_cons_self
    exact hinjective (le_antisymm (hclosest _ hmem hlocalNe)
      (hlocal first (mem_of_mem_getClosestNodes hstorer) hne))

/-- Where there is another storer, what should happen for a key does. -/
theorem exec_of_hasOtherStorer (hinjective : Function.Injective (getPeerDistance dataKey))
    (hnew : newNode ∈ candidates options)
    (hother : HasOtherStorer getPeerDistance options newNode dataKey) (state : State Data Remote) :
    Throwing.exec (replicateAndUpdateStaleState getPeerDistance options newNode dataKey) state =
      (.ok ⟨⟩, update getPeerDistance options newNode state dataKey) := by
  obtain ⟨first, rest, hbefore⟩ :=
    List.exists_cons_of_ne_nil ((storersBefore_ne_nil_iff hinjective hnew).mpr hother)
  have hprimary := head_eq_iff hinjective hbefore
  simp only [replicateAndUpdateStaleState, any_getStorers hinjective, hbefore, List.head?_cons,
    areEqualPeerDescriptors, pure_bind, hprimary]
  unfold update
  by_cases hwas : WasPrimaryStorer getPeerDistance options newNode dataKey
  · -- then the node is a storer
    have hfirst : first ∈ (getStorers getPeerDistance options dataKey).filter
        (·.nodeId ≠ newNode.nodeId) := hbefore ▸ List.mem_cons_self
    have hlocal : IsStorer getPeerDistance options dataKey options.localPeerDescriptor.nodeId :=
      (mem_getStorers_iff hinjective).mp
        (hprimary.mpr hwas ▸ List.mem_map_of_mem (List.mem_filter.mp hfirst).1)
    by_cases hstorer : IsStorer getPeerDistance options dataKey newNode.nodeId
    · simp [hwas, hlocal, hstorer]
    · simp [hwas, hlocal, hstorer]
  · by_cases hlocal :
        IsStorer getPeerDistance options dataKey options.localPeerDescriptor.nodeId
    · simp [hwas, hlocal]
    · simp [hwas, hlocal]

/-- Where there is none, the comparison throws. -/
theorem exec_of_not_hasOtherStorer (hinjective : Function.Injective (getPeerDistance dataKey))
    (hnew : newNode ∈ candidates options)
    (hother : ¬HasOtherStorer getPeerDistance options newNode dataKey)
    (state : State Data Remote) :
    Throwing.exec (replicateAndUpdateStaleState getPeerDistance options newNode dataKey) state =
      (.error .typeError, state) := by
  have hnil := not_ne_iff.mp ((storersBefore_ne_nil_iff hinjective hnew).not.mpr hother)
  simp only [replicateAndUpdateStaleState, hnil, List.head?_nil, areEqualPeerDescriptors]
  rfl

/-- A key is updated as it should be if and only if there is another storer. -/
theorem updates_iff (hinjective : Function.Injective (getPeerDistance dataKey))
    (hnew : newNode ∈ candidates options) (state : State Data Remote) :
    Throwing.exec (replicateAndUpdateStaleState getPeerDistance options newNode dataKey) state =
        (.ok ⟨⟩, update getPeerDistance options newNode state dataKey) ↔
      HasOtherStorer getPeerDistance options newNode dataKey := by
  constructor
  · intro hexec
    by_contra hother
    rw [exec_of_not_hasOtherStorer hinjective hnew hother] at hexec
    cases hexec
  · exact fun hother ↦ exec_of_hasOtherStorer hinjective hnew hother state

/-- The keys of a store are updated one after the other if and only if there is another storer for
each of them. -/
theorem processes_iff (hinjective : ∀ dataKey, Function.Injective (getPeerDistance dataKey))
    (hnew : newNode ∈ candidates options) {state after : State Data Remote} :
    Throwing.exec (onContactAdded getPeerDistance options newNode) state = (.ok ⟨⟩, after) ↔
      (∀ dataKey ∈ state.localDataStore.keys,
        HasOtherStorer getPeerDistance options newNode dataKey) ∧
      after = state.localDataStore.keys.foldl (update getPeerDistance options newNode) state := by
  have hloop : Throwing.exec (onContactAdded getPeerDistance options newNode) state =
      Throwing.exec (state.localDataStore.keys.forM
        (replicateAndUpdateStaleState getPeerDistance options newNode)) state := rfl
  rw [hloop]
  exact Throwing.exec_forM_ok_iff
    (fun state dataKey hother ↦ exec_of_hasOtherStorer (hinjective dataKey) hnew hother state)
    fun state dataKey hother ↦
      ⟨_, _, exec_of_not_hasOtherStorer (hinjective dataKey) hnew hother state⟩

end Storers

/-! ### What is left of the updates -/

variable {getPeerDistance} {options : StoreManagerOptions Remote}
  {newNode : Contact DhtAddress Remote}

/-- The callbacks after some keys were updated: one for each key that the new node gets. -/
theorem immediates_foldl_update (state : State Data Remote) (dataKeys : List DhtAddress) :
    (dataKeys.foldl (update getPeerDistance options newNode) state).immediates =
      state.immediates ++ (dataKeys.filter fun dataKey ↦
        WasPrimaryStorer getPeerDistance options newNode dataKey ∧
          IsStorer getPeerDistance options dataKey newNode.nodeId).map (·, newNode) := by
  induction dataKeys generalizing state with
  | nil => exact (List.append_nil _).symm
  | cons dataKey dataKeys ih =>
    rw [List.foldl_cons, ih, update, List.filter_cons]
    by_cases hreplicates : WasPrimaryStorer getPeerDistance options newNode dataKey ∧
        IsStorer getPeerDistance options dataKey newNode.nodeId
    · rw [if_pos hreplicates, if_pos (decide_eq_true hreplicates), List.map_cons,
        List.append_assoc, List.singleton_append]
    · rw [if_neg hreplicates, if_neg (decide_eq_true_iff.not.mpr hreplicates), List.append_nil]

/-- The entries after one key was updated. -/
theorem getEntry_update (state : State Data Remote) (other dataKey creator : DhtAddress) :
    (update getPeerDistance options newNode state other).localDataStore.getEntry dataKey creator =
      if dataKey = other ∧
          ¬IsStorer getPeerDistance options dataKey options.localPeerDescriptor.nodeId then
        (state.localDataStore.getEntry dataKey creator).map fun entry ↦
          { entry with stale := true }
      else state.localDataStore.getEntry dataKey creator := by
  have hstore : (update getPeerDistance options newNode state other).localDataStore =
      if IsStorer getPeerDistance options other options.localPeerDescriptor.nodeId then
        state.localDataStore
      else state.localDataStore.setAllEntriesAsStale other := rfl
  rw [hstore]
  by_cases hsame : dataKey = other
  · subst hsame
    split_ifs with hstorer hboth hboth
    · exact absurd hstorer hboth.2
    · rfl
    · exact LocalDataStore.getEntry_setAllEntriesAsStale_self _ _ _
    · exact absurd ⟨rfl, hstorer⟩ hboth
  · rw [if_neg (not_and_of_not_left _ hsame)]
    split_ifs
    · rfl
    · exact LocalDataStore.getEntry_setAllEntriesAsStale_of_ne _ _ hsame

/-- The entries after some keys were updated: those of which the node is no storer are stale. -/
theorem getEntry_foldl_update (state : State Data Remote) (dataKeys : List DhtAddress)
    (dataKey creator : DhtAddress) :
    (dataKeys.foldl (update getPeerDistance options newNode) state).localDataStore.getEntry dataKey
        creator =
      if dataKey ∈ dataKeys ∧
          ¬IsStorer getPeerDistance options dataKey options.localPeerDescriptor.nodeId then
        (state.localDataStore.getEntry dataKey creator).map fun entry ↦
          { entry with stale := true }
      else state.localDataStore.getEntry dataKey creator := by
  induction dataKeys generalizing state with
  | nil => rw [if_neg fun hmem ↦ List.not_mem_nil hmem.1, List.foldl_nil]
  | cons other dataKeys ih =>
    rw [List.foldl_cons, ih, getEntry_update]
    by_cases hstorer : IsStorer getPeerDistance options dataKey options.localPeerDescriptor.nodeId
    · simp [hstorer]
    · by_cases hsame : dataKey = other
      · -- to become stale twice is to become stale
        subst hsame
        by_cases hmem : dataKey ∈ dataKeys
        · simp [hstorer, hmem, Function.comp_def]
        · simp [hstorer, hmem]
      · simp [hstorer, hsame]

/-- A key is updated as it should be, and all keys of a store are, if and only if there is another
storer for the key, and for each of the keys: then the callbacks send the entries of the keys that
the new node gets, whatever these are when they run. Assumes: no two nodes have the same distance to
a key, and the new node is a neighbour. -/
theorem replicates_iff (hinjective : ∀ dataKey, Function.Injective (getPeerDistance dataKey))
    (hnew : newNode ∈ options.neighbors) :
    (∀ (state : State Data Remote) dataKey,
      Throwing.exec (replicateAndUpdateStaleState getPeerDistance options newNode dataKey) state =
          (.ok ⟨⟩, update getPeerDistance options newNode state dataKey) ↔
        HasOtherStorer getPeerDistance options newNode dataKey) ∧
    ∀ store : LocalDataStore Data,
      (∃ after, Throwing.exec (onContactAdded getPeerDistance options newNode) ⟨store, []⟩ =
          (.ok ⟨⟩, after) ∧
        (∀ later : LocalDataStore Data, after.immediates.flatMap (runImmediate later) =
          (store.keys.filter fun dataKey ↦
            WasPrimaryStorer getPeerDistance options newNode dataKey ∧
              IsStorer getPeerDistance options dataKey newNode.nodeId).flatMap fun dataKey ↦
                (later.values dataKey).map (·, newNode)) ∧
        ∀ dataKey creator, after.localDataStore.getEntry dataKey creator =
          if dataKey ∈ store.keys ∧
              ¬IsStorer getPeerDistance options dataKey options.localPeerDescriptor.nodeId then
            (store.getEntry dataKey creator).map fun entry ↦ { entry with stale := true }
          else store.getEntry dataKey creator) ↔
      ∀ dataKey ∈ store.keys, HasOtherStorer getPeerDistance options newNode dataKey := by
  have hcandidate : newNode ∈ candidates options := List.mem_append_left _ hnew
  refine ⟨fun state dataKey ↦ updates_iff (hinjective dataKey) hcandidate state,
    fun store ↦ ⟨?_, fun hothers ↦ ?_⟩⟩
  · rintro ⟨after, hexec, -⟩
    exact ((processes_iff hinjective hcandidate).mp hexec).1
  · refine ⟨_, (processes_iff hinjective hcandidate).mpr ⟨hothers, rfl⟩, fun later ↦ ?_,
      fun dataKey creator ↦ getEntry_foldl_update _ _ dataKey creator⟩
    rw [immediates_foldl_update, List.nil_append, List.flatMap_map]
    rfl

/-! ### A new neighbour that is the only storer -/

/-- An address that ends with a byte, after zeros. -/
def smallNode (last : UInt8) : Contact DhtAddress Unit := 
  ⟨⟨List.replicate 19 0 ++ [last], DhtAddress.length_small last⟩, ()⟩

/-- A node with the address 4, with a neighbour. -/
def smallOptions (neighbor : UInt8) (redundancyFactor : ℕ) (hne : redundancyFactor ≠ 0) :
    StoreManagerOptions Unit :=
  ⟨smallNode 4, [smallNode neighbor], redundancyFactor, hne⟩

/-- A store with one entry, for the key zero. -/
def smallStore : LocalDataStore Unit :=
  (LocalDataStore.empty.storeEntry ⟨(smallNode 0).nodeId, (), (smallNode 4).nodeId,
    ⟨1, 0, Timestamp.one_safe, Timestamp.zero_lt⟩, false, false⟩).1

/-- With two storers a key is updated for a closer neighbour. -/
theorem replicates_iff_two_storers :
    Throwing.exec (replicateAndUpdateStaleState kBucketDistance
        (smallOptions 1 2 (by decide)) (smallNode 1) (smallNode 0).nodeId) ⟨smallStore, []⟩ =
      (.ok ⟨⟩, update kBucketDistance (smallOptions 1 2 (by decide)) (smallNode 1) ⟨smallStore, []⟩
        (smallNode 0).nodeId) :=
  ((replicates_iff kBucketDistance_injective
    (show smallNode 1 ∈ (smallOptions 1 2 (by decide)).neighbors from List.mem_cons_self)).1
      ⟨smallStore, []⟩ (smallNode 0).nodeId).mpr ⟨smallNode 4, by decide, by decide, Or.inl (by decide)⟩

/-- With one storer a closer neighbour makes the comparison throw: the entry, of which the node is
no storer any more, does not become stale. -/
theorem single_storer_throws :
    Throwing.exec (onContactAdded kBucketDistance (smallOptions 1 1 (by decide)) (smallNode 1))
        ⟨smallStore, []⟩ = (.error .typeError, ⟨smallStore, []⟩) ∧
      smallNode 1 ∈ (smallOptions 1 1 (by decide)).neighbors ∧
      (smallNode 0).nodeId ∈ smallStore.keys ∧
      ¬IsStorer kBucketDistance (smallOptions 1 1 (by decide)) (smallNode 0).nodeId
        (smallNode 4).nodeId := by
  refine ⟨?_, ?_, ?_, ?_⟩
  · rfl
  · exact List.mem_cons_self
  · decide
  · decide

end PomboStorageNode.Dht.StoreManager
