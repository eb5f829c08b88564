import PomboStorageNode.Dht.StoreManager

/-!
# Requests to store and to replicate data

`StoreRpcLocal.ts` answers the two requests about data. `storeData` stores an entry for a creator,
and `replicateData` stores an entry of another node and, if it was news, passes it on: the primary
storer to all the storers, another node to the primary storer.

Of an entry only the flags `stale` and `deleted` ever change. The rest is its `Version`, and
`versionAt` is the version that a store has for a key and a creator. What the operations do to a
store is said in these terms: `storeEntry` replaces a version by one with greater milliseconds or
leaves the store alone (`storeEntry_spec`), and setting flags changes no version.
-/

set_option autoImplicit false

namespace PomboStorageNode.Dht

open Library

variable {Data : Type}

/-! ### Versions -/

/-- The part of an entry that never changes. -/
structure Version (Data : Type) where
  key : DhtAddress
  data : Data
  creator : DhtAddress
  createdAt : Timestamp
  deriving DecidableEq

/-- The version of an entry. -/
def DataEntry.version (entry : DataEntry Data) : Version Data :=
  ⟨entry.key, entry.data, entry.creator, entry.createdAt⟩

/-- A version with its flags. -/
def Version.toEntry (version : Version Data) (stale deleted : Bool) : DataEntry Data :=
  ⟨version.key, version.data, version.creator, version.createdAt, stale, deleted⟩

namespace LocalDataStore

/-- The version that is stored for a key and a creator. -/
def versionAt (store : LocalDataStore Data) (key creator : DhtAddress) : Option (Version Data) :=
  (store.getEntry key creator).map DataEntry.version

/-- The store has this version, or one of the key and the creator that is no older. -/
def Holds (store : LocalDataStore Data) (version : Version Data) : Prop :=
  ∃ stored, store.versionAt version.key version.creator = some stored ∧
    version.createdAt.millis ≤ stored.createdAt.millis

instance (store : LocalDataStore Data) (version : Version Data) :
    Decidable (store.Holds version) :=
  decidable_of_iff ((store.versionAt version.key version.creator).any fun stored ↦
      version.createdAt.millis ≤ stored.createdAt.millis) <| by
    rw [Option.any_eq_true]
    simp only [decide_eq_true_eq]
    rfl

/-- `markAsDeleted`, with its result. -/
def markAsDeleted (store : LocalDataStore Data) (key creator : DhtAddress) :
    LocalDataStore Data × Bool :=
  match store.getEntry key creator with
  | some _ => (⟨store.store.adjust key fun entries ↦
      entries.adjust creator fun entry ↦ { entry with deleted := true }⟩, true)
  | none => (store, false)

/-- The timer of an entry removes it. -/
def expire (store : LocalDataStore Data) (key creator : DhtAddress) : LocalDataStore Data :=
  ⟨store.store.adjust key fun entries ↦ entries.delete creator⟩

/-- `values` of all keys. -/
def allValues (store : LocalDataStore Data) : List (DataEntry Data) :=
  store.store.values.flatMap OrderedMap.values

variable {store : LocalDataStore Data} {key creator : DhtAddress}

theorem versionAt_setAllEntriesAsStale (store : LocalDataStore Data)
    (dataKey key creator : DhtAddress) :
    (store.setAllEntriesAsStale dataKey).versionAt key creator = store.versionAt key creator := by
  unfold versionAt
  by_cases hkey : key = dataKey
  · rw [hkey, getEntry_setAllEntriesAsStale_self, Option.map_map]
    rfl
  · rw [getEntry_setAllEntriesAsStale_of_ne _ _ hkey]

theorem versionAt_markAsDeleted (store : LocalDataStore Data)
    (dataKey dataCreator key creator : DhtAddress) :
    (store.markAsDeleted dataKey dataCreator).1.versionAt key creator =
      store.versionAt key creator := by
  unfold markAsDeleted
  split
  · unfold versionAt getEntry
    by_cases hkey : key = dataKey
    · subst hkey
      rw [OrderedMap.get?_adjust_self]
      cases store.store.get? key with
      | none => rfl
      | some entries =>
        rw [Option.map_some, Option.bind_some, Option.bind_some]
        by_cases hcreator : creator = dataCreator
        · subst hcreator
          rw [OrderedMap.get?_adjust_self, Option.map_map]
          rfl
        · rw [OrderedMap.get?_adjust_of_ne _ _ hcreator]
    · rw [OrderedMap.get?_adjust_of_ne _ _ hkey]
  · rfl

theorem versionAt_expire (store : LocalDataStore Data)
    (dataKey dataCreator key creator : DhtAddress) :
    (store.expire dataKey dataCreator).versionAt key creator =
      if key = dataKey ∧ creator = dataCreator then none else store.versionAt key creator := by
  unfold versionAt getEntry expire
  by_cases hkey : key = dataKey
  · subst hkey
    rw [OrderedMap.get?_adjust_self]
    cases store.store.get? key with
    | none => simp
    | some entries =>
      rw [Option.map_some, Option.bind_some, Option.bind_some]
      by_cases hcreator : creator = dataCreator
      · subst hcreator
        rw [OrderedMap.get?_delete_self, if_pos ⟨rfl, rfl⟩]
        rfl
      · rw [OrderedMap.get?_delete_of_ne _ hcreator, if_neg fun hboth ↦ hcreator hboth.2]
  · rw [OrderedMap.get?_adjust_of_ne _ _ hkey, if_neg fun hboth ↦ hkey hboth.1]

/-- An entry that is listed is the one of some key and creator. -/
theorem exists_versionAt_of_mem_values {entry : DataEntry Data}
    (hmem : entry ∈ store.values key) :
    ∃ creator, store.versionAt key creator = some entry.version := by
  unfold values at hmem
  unfold versionAt getEntry
  cases hentries : store.store.get? key with
  | none =>
    rw [hentries] at hmem
    cases hmem
  | some entries =>
    rw [hentries, Option.map_some, Option.getD_some] at hmem
    obtain ⟨⟨creator, found⟩, hfound, rfl⟩ := List.mem_map.mp hmem
    refine ⟨creator, ?_⟩
    rw [Option.bind_some, OrderedMap.get?_eq_some_iff.mpr hfound]
    rfl

theorem exists_versionAt_of_mem_allValues {entry : DataEntry Data}
    (hmem : entry ∈ store.allValues) :
    ∃ key creator, store.versionAt key creator = some entry.version := by
  obtain ⟨entries, hentries, hentry⟩ := List.mem_flatMap.mp hmem
  obtain ⟨⟨key, found⟩, hfound, rfl⟩ := List.mem_map.mp hentries
  refine ⟨key, exists_versionAt_of_mem_values ?_⟩
  rw [values, OrderedMap.get?_eq_some_iff.mpr hfound]
  exact hentry

/-- Storing an entry touches only its own key and creator. -/
theorem versionAt_storeEntry_of_ne (entry : DataEntry Data)
    (hne : ¬(key = entry.key ∧ creator = entry.creator)) :
    (store.storeEntry entry).1.versionAt key creator = store.versionAt key creator := by
  unfold versionAt
  by_cases hkey : key = entry.key
  · subst hkey
    rw [getEntry_storeEntry, if_neg fun hcreator ↦ hne ⟨rfl, hcreator.symm⟩]
  · have hget : ∀ entries : OrderedMap DhtAddress (DataEntry Data),
        (store.store.set entry.key entries).get? key = store.store.get? key :=
      fun _ ↦ OrderedMap.get?_set_of_ne _ _ hkey
    unfold storeEntry
    dsimp only
    split
    · split_ifs
      · rfl
      · rw [getEntry, hget]
        rfl
    · rw [getEntry, hget]
      rfl

/-- An entry that is news becomes the stored one, and otherwise the store had it and stays. -/
theorem storeEntry_spec (store : LocalDataStore Data) (entry : DataEntry Data) :
    ((store.storeEntry entry).2 = true ∧ ¬ store.Holds entry.version ∧
      (store.storeEntry entry).1.versionAt entry.key entry.creator = some entry.version) ∨
    ((store.storeEntry entry).2 = false ∧ store.Holds entry.version ∧
      (store.storeEntry entry).1 = store) := by
  have hself := getEntry_storeEntry store entry entry.creator
  rw [if_pos rfl] at hself
  have hget : ((store.store.get? entry.key).getD .empty).get? entry.creator =
      store.getEntry entry.key entry.creator := by
    unfold getEntry
    cases store.store.get? entry.key <;> rfl
  have hversion : ∀ stored, (store.storeEntry entry).1.getEntry entry.key entry.creator =
      some stored → (store.storeEntry entry).1.versionAt entry.key entry.creator =
        some stored.version := by
    intro stored hstored
    rw [versionAt, hstored]
    rfl
  cases hold : store.getEntry entry.key entry.creator with
  | none =>
    rw [hold, newer] at hself
    refine Or.inl ⟨?_, ?_, hversion _ hself⟩
    · simp only [storeEntry, hget, hold]
    · rintro ⟨stored, hstored, -⟩
      change store.versionAt entry.key entry.creator = some stored at hstored
      rw [versionAt, hold] at hstored
      cases hstored
  | some old =>
    rw [hold, newer] at hself
    have hholds : store.Holds entry.version ↔ entry.createdAt.millis ≤ old.createdAt.millis := by
      have hat : store.versionAt entry.key entry.creator = some old.version := by
        rw [versionAt, hold]
        rfl
      constructor
      · rintro ⟨stored, hstored, hle⟩
        obtain rfl := Option.some.inj (hat.symm.trans hstored)
        exact hle
      · exact fun hle ↦ ⟨old.version, hat, hle⟩
    by_cases hle : entry.createdAt.millis ≤ old.createdAt.millis
    · refine Or.inr ⟨?_, hholds.mpr hle, ?_⟩
      · simp only [storeEntry, hget, hold, if_pos hle]
      · simp only [storeEntry, hget, hold, if_pos hle]
    · rw [if_neg hle] at hself
      refine Or.inl ⟨?_, fun hhas ↦ hle (hholds.mp hhas), hversion _ hself⟩
      simp only [storeEntry, hget, hold, if_neg hle]

/-- After an entry was stored the store holds it. -/
theorem holds_storeEntry (store : LocalDataStore Data) (entry : DataEntry Data) :
    (store.storeEntry entry).1.Holds entry.version := by
  rcases store.storeEntry_spec entry with ⟨-, -, hstored⟩ | ⟨-, hholds, hsame⟩
  · exact ⟨entry.version, hstored, le_rfl⟩
  · rw [hsame]
    exact hholds

/-- What is held stays held when an entry is stored. -/
theorem Holds.storeEntry {version : Version Data} (hholds : store.Holds version)
    (entry : DataEntry Data) : (store.storeEntry entry).1.Holds version := by
  obtain ⟨stored, hstored, hle⟩ := hholds
  by_cases hsame : version.key = entry.key ∧ version.creator = entry.creator
  · obtain ⟨hkey, hcreator⟩ := hsame
    rcases store.storeEntry_spec entry with ⟨-, hnews, hafter⟩ | ⟨-, -, hafter⟩
    · refine ⟨entry.version, hkey ▸ hcreator ▸ hafter, hle.trans ?_⟩
      by_contra hlt
      rw [not_le] at hlt
      rw [hkey, hcreator] at hstored
      exact hnews ⟨stored, hstored, hlt.le⟩
    · rw [hafter]
      exact ⟨stored, hstored, hle⟩
  · exact ⟨stored, (versionAt_storeEntry_of_ne entry hsame).trans hstored, hle⟩

theorem holds_congr {other : LocalDataStore Data}
    (hsame : ∀ key creator, other.versionAt key creator = store.versionAt key creator)
    {version : Version Data} : other.Holds version ↔ store.Holds version := by
  unfold Holds
  rw [hsame]

end LocalDataStore

/-! ### The requests -/

namespace StoreRpcLocal

open StoreManager

variable {Remote : Type} {Distance : Type*} [LinearOrder Distance]
  (getPeerDistance : DhtAddress → DhtAddress → Distance) (options : StoreManagerOptions Remote)

/-- `isLocalNodeStorer`. -/
def isLocalNodeStorer (dataKey : DhtAddress) : Bool :=
  (getStorers getPeerDistance options dataKey).any fun storer ↦
    storer.nodeId = options.localPeerDescriptor.nodeId

/-- The entries of a key become stale unless the node is a storer of it. -/
def updateStaleState (store : LocalDataStore Data) (dataKey : DhtAddress) : LocalDataStore Data :=
  if isLocalNodeStorer getPeerDistance options dataKey then store
  else store.setAllEntriesAsStale dataKey

/-- `storeData`. -/
def storeData (store : LocalDataStore Data) (request : Version Data) : LocalDataStore Data :=
  updateStaleState getPeerDistance options
    (store.storeEntry (request.toEntry
      (!isLocalNodeStorer getPeerDistance options request.key) false)).1 request.key

/-- The targets of `replicateDataToNeighbors`. The storers are never none, because the node itself
is a candidate. -/
def replicationTargets (requestor dataKey : DhtAddress) : List (Contact DhtAddress Remote) :=
  match getStorers getPeerDistance options dataKey with
  | [] => []
  | primary :: rest =>
    (if primary.nodeId = options.localPeerDescriptor.nodeId then primary :: rest
      else [primary]).filter fun target ↦
        target.nodeId ≠ requestor ∧ target.nodeId ≠ options.localPeerDescriptor.nodeId

/-- `replicateData`, with the nodes that the entry is passed on to. -/
def replicateData (store : LocalDataStore Data) (dataEntry : DataEntry Data)
    (requestor : DhtAddress) : LocalDataStore Data × List (Contact DhtAddress Remote) :=
  (updateStaleState getPeerDistance options (store.storeEntry dataEntry).1 dataEntry.key,
    if (store.storeEntry dataEntry).2 then
      replicationTargets getPeerDistance options requestor dataEntry.key
    else [])

variable {getPeerDistance options}

theorem length_replicationTargets_le (requestor dataKey : DhtAddress) :
    (replicationTargets getPeerDistance options requestor dataKey).length ≤
      options.redundancyFactor := by
  have hleast := (least_getStorers getPeerDistance options dataKey).length_le
  rw [List.length_map] at hleast
  unfold replicationTargets
  split
  · exact Nat.zero_le _
  · rename_i primary rest hstorers
    rw [hstorers] at hleast
    refine (List.length_filter_le _ _).trans ?_
    split_ifs
    · exact hleast
    · exact Nat.one_le_iff_ne_zero.mpr options.redundancyFactor_ne_zero

theorem versionAt_updateStaleState (store : LocalDataStore Data)
    (dataKey key creator : DhtAddress) :
    (updateStaleState getPeerDistance options store dataKey).versionAt key creator =
      store.versionAt key creator := by
  unfold updateStaleState
  split_ifs
  · rfl
  · exact LocalDataStore.versionAt_setAllEntriesAsStale _ _ _ _

end StoreRpcLocal

end PomboStorageNode.Dht
