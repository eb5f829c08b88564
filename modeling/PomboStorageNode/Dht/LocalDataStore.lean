import PomboStorageNode.Dht.Identifiers
import PomboStorageNode.Library.Binary64
import PomboStorageNode.Library.OrderedMap
import Mathlib.Data.Prod.Lex
import Mathlib.Data.Int.Order.Basic

/-!
# Data entries of a node

A creator stores one entry for a key, and a newer entry takes the place of an older one.
`LocalDataStore.ts` compares the milliseconds of the timestamps, which are rounded numbers: it holds
an entry with the greatest milliseconds of those that were stored (`getEntry_storeEntries`), and of
several ones with these milliseconds not always the same one. Entries expire in the source, and here
they do not.
-/

set_option autoImplicit false

namespace PomboStorageNode.Dht

open Library

/-! ### Timestamps -/

/-- `Timestamp`, with seconds that are a safe integer. -/
structure Timestamp where
  seconds : ℤ
  nanos : ℕ
  seconds_safe : seconds.natAbs < 2 ^ 53
  nanos_lt : nanos < 1000000000
  deriving DecidableEq

namespace Timestamp

theorem one_safe : (1 : ℤ).natAbs < 2 ^ 53 := by decide

theorem zero_lt : 0 < 1000000000 := by decide

/-- The seconds and the nanoseconds, as a pair that is ordered by the seconds first. -/
def key (timestamp : Timestamp) : ℤ ×ₗ ℕ := toLex (timestamp.seconds, timestamp.nanos)

theorem key_injective : Function.Injective key := by
  rintro ⟨seconds, nanos, _, _⟩ ⟨others, otherNanos, _, _⟩ hsame
  obtain ⟨rfl, rfl⟩ := Prod.mk.inj (toLex.injective hsame)
  rfl

/-- The order of time. -/
instance : LinearOrder Timestamp := LinearOrder.lift' key key_injective

/-- The milliseconds that `storeEntry` computes. -/
def millis (timestamp : Timestamp) : ℚ :=
  Binary64.round (Binary64.round (timestamp.seconds * 1000) +
    Binary64.round (timestamp.nanos / 1000000))

end Timestamp

/-! ### Entries -/

/-- `DataEntry`. -/
structure DataEntry (Data : Type*) where
  key : DhtAddress
  data : Data
  creator : DhtAddress
  createdAt : Timestamp
  stale : Bool
  deleted : Bool
  deriving DecidableEq

/-- `LocalDataStore`: for each key the entries by creator. -/
structure LocalDataStore (Data : Type*) where
  store : OrderedMap DhtAddress (OrderedMap DhtAddress (DataEntry Data))

namespace LocalDataStore

variable {Data : Type*}

/-- A store without entries. -/
def empty : LocalDataStore Data := ⟨.empty⟩

/-- The entry of a creator for a key. -/
def getEntry (store : LocalDataStore Data) (key creator : DhtAddress) :
    Option (DataEntry Data) :=
  (store.store.get? key).bind (·.get? creator)

/-- `storeEntry`, with its result. -/
def storeEntry (store : LocalDataStore Data) (dataEntry : DataEntry Data) :
    LocalDataStore Data × Bool :=
  let entries := (store.store.get? dataEntry.key).getD .empty
  let stored : LocalDataStore Data :=
    ⟨store.store.set dataEntry.key (entries.set dataEntry.creator dataEntry)⟩
  match entries.get? dataEntry.creator with
  | some oldLocalEntry =>
    if dataEntry.createdAt.millis ≤ oldLocalEntry.createdAt.millis then (store, false)
    else (stored, true)
  | none => (stored, true)

/-- Several entries, one after the other. -/
def storeEntries (store : LocalDataStore Data) (dataEntries : List (DataEntry Data)) :
    LocalDataStore Data :=
  dataEntries.foldl (fun store dataEntry ↦ (store.storeEntry dataEntry).1) store

/-- `keys`. -/
def keys (store : LocalDataStore Data) : List DhtAddress := store.store.keys

/-- `values` of a key. -/
def values (store : LocalDataStore Data) (key : DhtAddress) : List (DataEntry Data) :=
  ((store.store.get? key).map OrderedMap.values).getD []

/-- `setAllEntriesAsStale`. -/
def setAllEntriesAsStale (store : LocalDataStore Data) (key : DhtAddress) : LocalDataStore Data :=
  ⟨store.store.adjust key fun entries ↦ entries.mapValues fun entry ↦ { entry with stale := true }⟩

@[simp] theorem getEntry_setAllEntriesAsStale_self (store : LocalDataStore Data)
    (key creator : DhtAddress) :
    (store.setAllEntriesAsStale key).getEntry key creator =
      (store.getEntry key creator).map fun entry ↦ { entry with stale := true } := by
  rw [getEntry, getEntry, setAllEntriesAsStale, OrderedMap.get?_adjust_self]
  cases store.store.get? key with
  | none => rfl
  | some entries => exact OrderedMap.get?_mapValues _ _ _

@[simp] theorem getEntry_setAllEntriesAsStale_of_ne (store : LocalDataStore Data)
    {key other : DhtAddress} (creator : DhtAddress) (hne : other ≠ key) :
    (store.setAllEntriesAsStale key).getEntry other creator = store.getEntry other creator := by
  rw [getEntry, getEntry, setAllEntriesAsStale, OrderedMap.get?_adjust_of_ne _ _ hne]

/-- The entry that is kept of an old one and a new one. -/
def newer (old : Option (DataEntry Data)) (dataEntry : DataEntry Data) : DataEntry Data :=
  match old with
  | some oldLocalEntry =>
    if dataEntry.createdAt.millis ≤ oldLocalEntry.createdAt.millis then oldLocalEntry
    else dataEntry
  | none => dataEntry

/-- The entry of a creator after one was stored. -/
theorem getEntry_storeEntry (store : LocalDataStore Data) (dataEntry : DataEntry Data)
    (creator : DhtAddress) :
    (store.storeEntry dataEntry).1.getEntry dataEntry.key creator =
      if dataEntry.creator = creator then
        some (newer (store.getEntry dataEntry.key creator) dataEntry)
      else store.getEntry dataEntry.key creator := by
  have hold (creator : DhtAddress) : ((store.store.get? dataEntry.key).getD .empty).get? creator =
      store.getEntry dataEntry.key creator := by
    unfold getEntry
    cases store.store.get? dataEntry.key with
    | none => rfl
    | some entries => rfl
  have hstored (creator : DhtAddress) : getEntry (⟨store.store.set dataEntry.key
      (((store.store.get? dataEntry.key).getD .empty).set dataEntry.creator dataEntry)⟩ :
        LocalDataStore Data) dataEntry.key creator =
      if dataEntry.creator = creator then some dataEntry
      else store.getEntry dataEntry.key creator := by
    rw [getEntry, OrderedMap.get?_set_self, Option.bind_some]
    split_ifs with hcreator
    · rw [← hcreator, OrderedMap.get?_set_self]
    · rw [OrderedMap.get?_set_of_ne _ _ (Ne.symm hcreator), hold]
  unfold storeEntry
  dsimp only
  rw [hold]
  by_cases hcreator : dataEntry.creator = creator
  · subst hcreator
    rw [if_pos rfl]
    cases hget : store.getEntry dataEntry.key dataEntry.creator with
    | none => rw [hstored, if_pos rfl, newer]
    | some oldLocalEntry =>
      dsimp only
      split_ifs with hle
      · rw [hget, newer, if_pos hle]
      · rw [hstored, if_pos rfl, newer, if_neg hle]
  · rw [if_neg hcreator]
    cases store.getEntry dataEntry.key dataEntry.creator with
    | none => rw [hstored, if_neg hcreator]
    | some oldLocalEntry =>
      dsimp only
      split_ifs
      · rfl
      · rw [hstored, if_neg hcreator]

/-- The entries of a creator among several ones. -/
def entriesOf (creator : DhtAddress) (dataEntries : List (DataEntry Data)) :
    List (DataEntry Data) :=
  dataEntries.filter (·.creator = creator)

theorem entriesOf_append (creator : DhtAddress) (first second : List (DataEntry Data)) :
    entriesOf creator (first ++ second) = entriesOf creator first ++ entriesOf creator second :=
  List.filter_append first second

theorem entriesOf_cons_of_eq {entry : DataEntry Data} {creator : DhtAddress}
    (hcreator : entry.creator = creator) (dataEntries : List (DataEntry Data)) :
    entriesOf creator (entry :: dataEntries) = entry :: entriesOf creator dataEntries :=
  List.filter_cons_of_pos (decide_eq_true hcreator)

theorem entriesOf_cons_of_ne {entry : DataEntry Data} {creator : DhtAddress}
    (hcreator : entry.creator ≠ creator) (dataEntries : List (DataEntry Data)) :
    entriesOf creator (entry :: dataEntries) = entriesOf creator dataEntries :=
  List.filter_cons_of_neg fun htrue ↦ hcreator (of_decide_eq_true htrue)

/-- The entry that is kept of several ones, after an old one. -/
def newest (old : Option (DataEntry Data)) (dataEntries : List (DataEntry Data)) :
    Option (DataEntry Data) :=
  dataEntries.foldl (fun old dataEntry ↦ some (newer old dataEntry)) old

/-- The entry of a creator after several ones for a key were stored. -/
theorem getEntry_storeEntries {store : LocalDataStore Data} {key creator : DhtAddress}
    {dataEntries : List (DataEntry Data)} (hkey : ∀ entry ∈ dataEntries, entry.key = key) :
    (store.storeEntries dataEntries).getEntry key creator =
      newest (store.getEntry key creator) (entriesOf creator dataEntries) := by
  induction dataEntries generalizing store with
  | nil => rfl
  | cons entry dataEntries ih =>
    have hentry := hkey entry List.mem_cons_self
    change ((store.storeEntry entry).1.storeEntries dataEntries).getEntry key creator = _
    rw [ih fun other hother ↦ hkey other (List.mem_cons_of_mem _ hother), ← hentry,
      getEntry_storeEntry]
    split_ifs with hcreator
    · rw [entriesOf_cons_of_eq hcreator]
      rfl
    · rw [entriesOf_cons_of_ne hcreator]

/-- What is kept is the old entry or a later one of the list, and nothing has greater
milliseconds. -/
theorem newest_some (old : DataEntry Data) (dataEntries : List (DataEntry Data)) :
    ∃ kept, newest (some old) dataEntries = some kept ∧
      (kept = old ∨ (kept ∈ dataEntries ∧ old.createdAt.millis < kept.createdAt.millis)) ∧
      ∀ entry ∈ dataEntries, entry.createdAt.millis ≤ kept.createdAt.millis := by
  induction dataEntries generalizing old with
  | nil => exact ⟨old, rfl, Or.inl rfl, nofun⟩
  | cons entry dataEntries ih =>
    obtain ⟨kept, hkept, hor, hall⟩ := ih (newer (some old) entry)
    refine ⟨kept, hkept, ?_, ?_⟩
    · unfold newer at hor
      dsimp only at hor
      split_ifs at hor with hle
      · exact hor.imp_right fun hmem ↦ ⟨List.mem_cons_of_mem _ hmem.1, hmem.2⟩
      · rw [not_le] at hle
        rcases hor with rfl | ⟨hmem, hlt⟩
        · exact Or.inr ⟨List.mem_cons_self, hle⟩
        · exact Or.inr ⟨List.mem_cons_of_mem _ hmem, hle.trans hlt⟩
    · have hnewer : entry.createdAt.millis ≤ (newer (some old) entry).createdAt.millis := by
        unfold newer
        dsimp only
        split_ifs with hle
        · exact hle
        · exact le_rfl
      have hle : (newer (some old) entry).createdAt.millis ≤ kept.createdAt.millis := by
        rcases hor with rfl | ⟨-, hlt⟩
        · exact le_rfl
        · exact hlt.le
      intro other hother
      rcases List.mem_cons.mp hother with rfl | hmem
      · exact hnewer.trans hle
      · exact hall other hmem

/-- What is kept of some entries is one with the greatest milliseconds. -/
theorem exists_newest {dataEntries : List (DataEntry Data)} (hne : dataEntries ≠ []) :
    ∃ kept ∈ dataEntries, newest none dataEntries = some kept ∧
      ∀ entry ∈ dataEntries, entry.createdAt.millis ≤ kept.createdAt.millis := by
  obtain ⟨first, rest, rfl⟩ := List.exists_cons_of_ne_nil hne
  obtain ⟨kept, hkept, hor, hall⟩ := newest_some first rest
  refine ⟨kept, ?_, hkept, fun entry hentry ↦ ?_⟩
  · rcases hor with rfl | ⟨hmem, -⟩
    · exact List.mem_cons_self
    · exact List.mem_cons_of_mem _ hmem
  · rcases List.mem_cons.mp hentry with rfl | hmem
    · rcases hor with rfl | ⟨-, hlt⟩
      · exact le_rfl
      · exact hlt.le
    · exact hall entry hmem

end LocalDataStore

end PomboStorageNode.Dht
