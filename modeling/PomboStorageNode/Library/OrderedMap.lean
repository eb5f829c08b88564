import Mathlib.Data.List.Nodup
import Mathlib.Data.List.Perm.Basic

/-!
# Maps and sets that remember insertion order

`OrderedMap` is a map whose entries are kept in the order in which their keys were first set, and
`OrderedSet` the set with the same discipline; both carry the proof that no key occurs twice, so
that a lookup and membership among the entries say the same (`get?_eq_some_iff`). Setting a key
that is present replaces its value in place, a new key goes to the end. The lemmas give the
lookup after each operation; with them no later proof unfolds an operation.
-/

set_option autoImplicit false

namespace PomboStorageNode.Library

/-! ### Maps -/

/-- A finite map with its entries in insertion order. -/
structure OrderedMap (Key Value : Type*) where
  entries : List (Key × Value)
  nodup_keys : (entries.map Prod.fst).Nodup

namespace OrderedMap

variable {Key Value : Type*}

/-- The map without entries. -/
def empty : OrderedMap Key Value := ⟨[], List.nodup_nil⟩

/-- The keys in insertion order. -/
def keys (map : OrderedMap Key Value) : List Key := map.entries.map Prod.fst

/-- The values in insertion order of their keys. -/
def values (map : OrderedMap Key Value) : List Value := map.entries.map Prod.snd

theorem nodup_entries (map : OrderedMap Key Value) : map.entries.Nodup :=
  List.Nodup.of_map _ map.nodup_keys

/-- Two entries with the same key are the same entry. -/
theorem value_unique (map : OrderedMap Key Value) {key : Key} {first second : Value}
    (hfirst : (key, first) ∈ map.entries) (hsecond : (key, second) ∈ map.entries) :
    first = second := by
  have heq := List.inj_on_of_nodup_map map.nodup_keys hfirst hsecond rfl
  exact congrArg Prod.snd heq

/-- The entries that satisfy a predicate. -/
def filter (map : OrderedMap Key Value) (keep : Key × Value → Bool) : OrderedMap Key Value where
  entries := map.entries.filter keep
  nodup_keys := map.nodup_keys.sublist (List.filter_sublist.map Prod.fst)

variable [DecidableEq Key]

/-- The value of a key, if it is present. -/
def get? (map : OrderedMap Key Value) (key : Key) : Option Value := map.entries.lookup key

/-- Whether a key is present. -/
def has (map : OrderedMap Key Value) (key : Key) : Bool := (map.get? key).isSome

/-- Removing a key. -/
def delete (map : OrderedMap Key Value) (key : Key) : OrderedMap Key Value :=
  map.filter fun entry ↦ entry.1 ≠ key

/-- A lookup finds exactly the entries. -/
theorem get?_eq_some_iff {map : OrderedMap Key Value} {key : Key} {value : Value} :
    map.get? key = some value ↔ (key, value) ∈ map.entries := by
  obtain ⟨entries, hnodup⟩ := map
  simp only [get?]
  induction entries with
  | nil => simp
  | cons entry entries ih =>
    obtain ⟨other, kept⟩ := entry
    rw [List.map_cons, List.nodup_cons] at hnodup
    rw [List.lookup_cons, List.mem_cons, Prod.mk.injEq]
    by_cases heq : key = other
    · subst heq
      have hnot : (key, value) ∉ entries := fun hmem ↦
        hnodup.1 (List.mem_map.mpr ⟨(key, value), hmem, rfl⟩)
      simp [hnot, eq_comm]
    · have hbeq : (key == other) = false := by simpa using heq
      simp [hbeq, heq, ih hnodup.2]

/-- A lookup fails exactly when the key has no entry. -/
theorem get?_eq_none_iff {map : OrderedMap Key Value} {key : Key} :
    map.get? key = none ↔ ∀ value, (key, value) ∉ map.entries := by
  rw [Option.eq_none_iff_forall_ne_some]
  exact forall_congr' fun value ↦ not_congr get?_eq_some_iff

theorem mem_keys_iff {map : OrderedMap Key Value} {key : Key} :
    key ∈ map.keys ↔ ∃ value, map.get? key = some value := by
  simp [keys, get?_eq_some_iff]

theorem has_iff_mem_keys {map : OrderedMap Key Value} {key : Key} :
    map.has key = true ↔ key ∈ map.keys := by
  rw [mem_keys_iff, has, Option.isSome_iff_exists]

/-- The values are what the lookups of the keys find. -/
theorem values_eq_map_keys (map : OrderedMap Key Value) (default : Value) :
    map.values = map.keys.map fun key ↦ (map.get? key).getD default := by
  rw [values, keys, List.map_map]
  refine List.map_congr_left fun entry hmem ↦ ?_
  show entry.2 = (map.get? entry.1).getD default
  rw [get?_eq_some_iff.mpr hmem]
  rfl

@[simp] theorem get?_empty (key : Key) : (empty : OrderedMap Key Value).get? key = none := rfl

/-- The lookup in a filtered map. -/
theorem get?_filter (map : OrderedMap Key Value) (keep : Key × Value → Bool) (key : Key) :
    (map.filter keep).get? key = (map.get? key).filter fun value ↦ keep (key, value) := by
  ext value
  rw [get?_eq_some_iff, Option.filter_eq_some_iff, get?_eq_some_iff]
  exact List.mem_filter

@[simp] theorem get?_delete_self (map : OrderedMap Key Value) (key : Key) :
    (map.delete key).get? key = none := by
  simp [delete, get?_filter]

@[simp] theorem get?_delete_of_ne (map : OrderedMap Key Value) {key other : Key}
    (hne : other ≠ key) : (map.delete key).get? other = map.get? other := by
  ext value
  rw [delete, get?_filter, Option.filter_eq_some_iff]
  simp [hne]

/-- Setting a key: its value is replaced in place, or a new entry goes to the end. -/
def set (map : OrderedMap Key Value) (key : Key) (value : Value) : OrderedMap Key Value where
  entries := if key ∈ map.entries.map Prod.fst then
      map.entries.map fun entry ↦ if entry.1 = key then (key, value) else entry
    else map.entries ++ [(key, value)]
  nodup_keys := by
    split_ifs with hkey
    · have hkeys : (map.entries.map fun entry ↦ if entry.1 = key then (key, value) else entry).map
          Prod.fst = map.entries.map Prod.fst := by
        rw [List.map_map]
        refine List.map_congr_left fun entry _ ↦ ?_
        by_cases heq : entry.1 = key <;> simp [heq]
      rw [hkeys]
      exact map.nodup_keys
    · rw [List.map_append, List.map_singleton]
      refine List.nodup_append.mpr ⟨map.nodup_keys, List.nodup_singleton _, ?_⟩
      intro first hfirst second hsecond heq
      rw [List.mem_singleton] at hsecond
      rw [heq, hsecond] at hfirst
      exact hkey hfirst

/-- The entries after a key was set. -/
theorem mem_entries_set {map : OrderedMap Key Value} {key : Key} {value : Value}
    {entry : Key × Value} :
    entry ∈ (map.set key value).entries ↔
      entry = (key, value) ∨ (entry ∈ map.entries ∧ entry.1 ≠ key) := by
  unfold set
  dsimp only
  split_ifs with hkey
  · rw [List.mem_map]
    constructor
    · rintro ⟨old, hold, rfl⟩
      by_cases heq : old.1 = key
      · simp [heq]
      · simp [heq, hold]
    · rintro (rfl | ⟨hmem, hne⟩)
      · obtain ⟨old, hold, heq⟩ := List.mem_map.mp hkey
        exact ⟨old, hold, by simp [heq]⟩
      · exact ⟨entry, hmem, by simp [hne]⟩
  · rw [List.mem_append, List.mem_singleton, or_comm]
    refine or_congr_right (Iff.symm (and_iff_left_of_imp fun hmem heq ↦ hkey ?_))
    exact List.mem_map.mpr ⟨entry, hmem, heq⟩

@[simp] theorem get?_set_self (map : OrderedMap Key Value) (key : Key) (value : Value) :
    (map.set key value).get? key = some value :=
  get?_eq_some_iff.mpr (mem_entries_set.mpr (Or.inl rfl))

@[simp] theorem get?_set_of_ne (map : OrderedMap Key Value) {key other : Key} (value : Value)
    (hne : other ≠ key) : (map.set key value).get? other = map.get? other := by
  ext found
  rw [get?_eq_some_iff, get?_eq_some_iff, mem_entries_set]
  simp [hne]

/-- The lookups that succeed after a key was set. -/
theorem get?_set_eq_some_iff {map : OrderedMap Key Value} {key other : Key} {value found : Value} :
    (map.set key value).get? other = some found ↔
      (other = key ∧ value = found) ∨ (other ≠ key ∧ map.get? other = some found) := by
  by_cases heq : other = key
  · simp [heq]
  · simp [heq]

/-- The lookups that succeed after a key was removed. -/
theorem get?_delete_eq_some_iff {map : OrderedMap Key Value} {key other : Key} {found : Value} :
    (map.delete key).get? other = some found ↔ other ≠ key ∧ map.get? other = some found := by
  by_cases heq : other = key
  · simp [heq]
  · simp [heq]

/-- Changing the value of a key, if it is present. -/
def adjust (map : OrderedMap Key Value) (key : Key) (change : Value → Value) :
    OrderedMap Key Value :=
  match map.get? key with
  | none => map
  | some value => map.set key (change value)

@[simp] theorem get?_adjust_self (map : OrderedMap Key Value) (key : Key)
    (change : Value → Value) : (map.adjust key change).get? key = (map.get? key).map change := by
  unfold adjust
  cases hget : map.get? key with
  | none => exact hget
  | some value => rw [get?_set_self, Option.map_some]

@[simp] theorem get?_adjust_of_ne (map : OrderedMap Key Value) {key other : Key}
    (change : Value → Value) (hne : other ≠ key) :
    (map.adjust key change).get? other = map.get? other := by
  unfold adjust
  cases map.get? key with
  | none => rfl
  | some value => exact get?_set_of_ne map _ hne

@[simp] theorem has_adjust (map : OrderedMap Key Value) (key other : Key)
    (change : Value → Value) : (map.adjust key change).has other = map.has other := by
  unfold has
  by_cases heq : other = key
  · rw [heq, get?_adjust_self, Option.isSome_map]
  · rw [get?_adjust_of_ne _ _ heq]

theorem has_set {map : OrderedMap Key Value} {key other : Key} {value : Value} :
    (map.set key value).has other = true ↔ other = key ∨ map.has other = true := by
  unfold has
  by_cases heq : other = key
  · simp [heq]
  · simp [heq]

theorem mem_keys_set {map : OrderedMap Key Value} {key other : Key} {value : Value} :
    other ∈ (map.set key value).keys ↔ other = key ∨ other ∈ map.keys := by
  rw [← has_iff_mem_keys, has_set, has_iff_mem_keys]

theorem has_delete {map : OrderedMap Key Value} {key other : Key} :
    (map.delete key).has other = true ↔ map.has other = true ∧ other ≠ key := by
  unfold has
  by_cases heq : other = key
  · simp [heq]
  · simp [heq]

/-- The map of a list of entries; a later entry replaces an earlier one with the same key. -/
def fromEntries (entries : List (Key × Value)) : OrderedMap Key Value :=
  entries.foldl (fun map entry ↦ map.set entry.1 entry.2) empty

/-- Setting entries whose values are all given by one function of the key. -/
theorem mem_entries_foldl_set (value : Key → Value) {entries : List (Key × Value)}
    {map : OrderedMap Key Value} (hentries : ∀ entry ∈ entries, entry.2 = value entry.1)
    (hmap : ∀ entry ∈ map.entries, entry.2 = value entry.1) {entry : Key × Value} :
    entry ∈ (entries.foldl (fun map entry ↦ map.set entry.1 entry.2) map).entries ↔
      entry ∈ map.entries ∨ entry ∈ entries := by
  induction entries generalizing map with
  | nil => simp
  | cons first entries ih =>
    have hset (other : Key × Value) : other ∈ (map.set first.1 first.2).entries ↔
        other = first ∨ other ∈ map.entries := by
      rw [mem_entries_set]
      refine ⟨Or.imp_right And.left, fun hor ↦ ?_⟩
      by_cases hsame : other.1 = first.1
      · refine Or.inl (Prod.ext hsame (hor.elim (fun heq ↦ heq ▸ rfl) fun hmem ↦ ?_))
        rw [hmap other hmem, hsame, hentries first List.mem_cons_self]
      · exact Or.inr ⟨hor.resolve_left fun heq ↦ hsame (heq ▸ rfl), hsame⟩
    rw [List.foldl_cons, ih, hset, List.mem_cons, or_assoc, or_left_comm]
    · exact fun other hother ↦ hentries other (List.mem_cons_of_mem first hother)
    · intro other hother
      rcases (hset other).mp hother with rfl | hmem
      · exact hentries other List.mem_cons_self
      · exact hmap other hmem

/-- The map of entries whose values are all given by one function of the key. -/
theorem mem_entries_fromEntries (value : Key → Value) {entries : List (Key × Value)}
    (hentries : ∀ entry ∈ entries, entry.2 = value entry.1) {entry : Key × Value} :
    entry ∈ (fromEntries entries).entries ↔ entry ∈ entries := by
  rw [fromEntries, mem_entries_foldl_set value hentries fun _ hmem ↦ absurd hmem List.not_mem_nil]
  exact or_iff_right List.not_mem_nil

/-- New entries go to the end in their order. -/
theorem entries_foldl_set_of_nodup {entries : List (Key × Value)} {map : OrderedMap Key Value}
    (hnodup : ((map.entries ++ entries).map Prod.fst).Nodup) :
    (entries.foldl (fun map entry ↦ map.set entry.1 entry.2) map).entries =
      map.entries ++ entries := by
  induction entries generalizing map with
  | nil => exact (List.append_nil _).symm
  | cons first entries ih =>
    have hnew : first.1 ∉ map.entries.map Prod.fst := by
      rw [List.map_append, List.map_cons] at hnodup
      exact fun hmem ↦ (List.nodup_append.mp hnodup).2.2 _ hmem _ List.mem_cons_self rfl
    have hset : (map.set first.1 first.2).entries = map.entries ++ [first] := if_neg hnew
    rw [List.foldl_cons, ih, hset, List.append_assoc, List.singleton_append]
    rwa [hset, List.append_assoc, List.singleton_append]

/-- Entries that agree with a map leave its entries where they are. -/
theorem exists_entries_foldl_set (value : Key → Value) {entries : List (Key × Value)}
    {map : OrderedMap Key Value} (hentries : ∀ entry ∈ entries, entry.2 = value entry.1)
    (hmap : ∀ entry ∈ map.entries, entry.2 = value entry.1) : ∃ rest,
      (entries.foldl (fun map entry ↦ map.set entry.1 entry.2) map).entries =
        map.entries ++ rest := by
  induction entries generalizing map with
  | nil => exact ⟨[], (List.append_nil _).symm⟩
  | cons first entries ih =>
    have hset : ∃ new, (map.set first.1 first.2).entries = map.entries ++ new := by
      by_cases hkey : first.1 ∈ map.entries.map Prod.fst
      · refine ⟨[], (if_pos hkey).trans ?_⟩
        rw [List.append_nil]
        refine (List.map_congr_left fun entry hmem ↦ ?_).trans (List.map_id _)
        by_cases hsame : entry.1 = first.1
        · rw [if_pos hsame, hentries first List.mem_cons_self, ← hsame, ← hmap entry hmem]
          rfl
        · exact if_neg hsame
      · exact ⟨[first], if_neg hkey⟩
    obtain ⟨new, hnew⟩ := hset
    obtain ⟨rest, hrest⟩ := @ih (map.set first.1 first.2)
      (fun other hother ↦ hentries other (List.mem_cons_of_mem first hother)) fun other hother ↦ by
        rcases mem_entries_set.mp hother with rfl | ⟨hmem, -⟩
        · exact hentries first List.mem_cons_self
        · exact hmap other hmem
    exact ⟨new ++ rest, by rw [List.foldl_cons, hrest, hnew, List.append_assoc]⟩

/-- The map of entries with different keys and of more entries that agree with them. -/
theorem exists_entries_fromEntries_append (value : Key → Value) {entries others : List (Key × Value)}
    (hnodup : (entries.map Prod.fst).Nodup)
    (hentries : ∀ entry ∈ entries ++ others, entry.2 = value entry.1) :
    ∃ rest, (fromEntries (entries ++ others)).entries = entries ++ rest := by
  have hfirst : (entries.foldl (fun map entry ↦ map.set entry.1 entry.2) empty).entries = entries :=
    entries_foldl_set_of_nodup hnodup
  obtain ⟨rest, hrest⟩ := @exists_entries_foldl_set _ _ _ value others
    (entries.foldl (fun map entry ↦ map.set entry.1 entry.2) empty)
    (fun entry hmem ↦ hentries entry (List.mem_append_right _ hmem)) fun entry hmem ↦ by
      rw [hfirst] at hmem
      exact hentries entry (List.mem_append_left _ hmem)
  refine ⟨rest, ?_⟩
  rw [fromEntries, List.foldl_append, hrest, hfirst]

/-- Changing every value. -/
def mapValues {Other : Type*} (map : OrderedMap Key Value) (change : Value → Other) :
    OrderedMap Key Other where
  entries := map.entries.map fun entry ↦ (entry.1, change entry.2)
  nodup_keys := by
    rw [List.map_map]
    exact map.nodup_keys

@[simp] theorem get?_mapValues {Other : Type*} (map : OrderedMap Key Value)
    (change : Value → Other) (key : Key) :
    (map.mapValues change).get? key = (map.get? key).map change := by
  ext found
  rw [get?_eq_some_iff, Option.map_eq_some_iff]
  simp only [get?_eq_some_iff, mapValues, List.mem_map, Prod.mk.injEq]
  constructor
  · rintro ⟨⟨other, value⟩, hmem, rfl, rfl⟩
    exact ⟨value, hmem, rfl⟩
  · rintro ⟨value, hmem, rfl⟩
    exact ⟨(key, value), hmem, rfl, rfl⟩

/-- A new key is one more key. -/
theorem keys_set_perm (map : OrderedMap Key Value) {key : Key} (value : Value)
    (hnew : map.has key = false) : (map.set key value).keys.Perm (key :: map.keys) := by
  have hnot : key ∉ map.keys := fun hmem ↦ by
    obtain ⟨found, hget⟩ := mem_keys_iff.mp hmem
    rw [has, hget] at hnew
    cases hnew
  refine (List.perm_ext_iff_of_nodup (map.set key value).nodup_keys
    (List.nodup_cons.mpr ⟨hnot, map.nodup_keys⟩)).mpr fun other ↦ ?_
  show other ∈ (map.set key value).keys ↔ _
  rw [List.mem_cons, mem_keys_iff, mem_keys_iff]
  by_cases heq : other = key
  · subst heq
    simp
  · simp [get?_set_of_ne _ _ heq, heq]

/-- A key that is deleted is one key less. -/
theorem keys_delete_perm (map : OrderedMap Key Value) {key : Key} (hhas : map.has key = true) :
    map.keys.Perm (key :: (map.delete key).keys) := by
  have hnot : key ∉ (map.delete key).keys := fun hmem ↦ by
    obtain ⟨found, hget⟩ := mem_keys_iff.mp hmem
    rw [get?_delete_self] at hget
    cases hget
  refine (List.perm_ext_iff_of_nodup map.nodup_keys
    (List.nodup_cons.mpr ⟨hnot, (map.delete key).nodup_keys⟩)).mpr fun other ↦ ?_
  show other ∈ map.keys ↔ _
  rw [List.mem_cons, mem_keys_iff, mem_keys_iff]
  by_cases heq : other = key
  · subst heq
    simpa using Option.isSome_iff_exists.mp hhas
  · simp [get?_delete_of_ne _ heq, heq]

end OrderedMap

/-! ### Sets -/

/-- A finite set with its elements in insertion order. -/
structure OrderedSet (Element : Type*) where
  elements : List Element
  nodup : elements.Nodup

namespace OrderedSet

variable {Element : Type*}

instance : Membership Element (OrderedSet Element) :=
  ⟨fun set element ↦ element ∈ set.elements⟩

instance [DecidableEq Element] (element : Element) (set : OrderedSet Element) :
    Decidable (element ∈ set) :=
  inferInstanceAs (Decidable (element ∈ set.elements))

theorem mem_def {set : OrderedSet Element} {element : Element} :
    element ∈ set ↔ element ∈ set.elements := Iff.rfl

/-- The set without elements. -/
def empty : OrderedSet Element := ⟨[], List.nodup_nil⟩

@[simp] theorem notMem_empty (element : Element) : element ∉ (empty : OrderedSet Element) :=
  List.not_mem_nil

variable [DecidableEq Element]

/-- Adding an element, at the end when it is new. -/
def add (set : OrderedSet Element) (element : Element) : OrderedSet Element :=
  if hmem : element ∈ set.elements then set
  else ⟨set.elements ++ [element], List.nodup_append.mpr ⟨set.nodup, List.nodup_singleton _,
    fun _ hfirst _ hsecond heq ↦ hmem ((List.mem_singleton.mp hsecond) ▸ heq ▸ hfirst)⟩⟩

/-- Removing an element. -/
def delete (set : OrderedSet Element) (element : Element) : OrderedSet Element :=
  ⟨set.elements.filter (· ≠ element), set.nodup.filter _⟩

@[simp] theorem mem_add {set : OrderedSet Element} {element other : Element} :
    other ∈ set.add element ↔ other = element ∨ other ∈ set := by
  unfold add
  split_ifs with hmem
  · exact ⟨Or.inr, fun hor ↦ hor.elim (fun heq ↦ heq ▸ hmem) id⟩
  · rw [mem_def, List.mem_append, List.mem_singleton, or_comm]
    rfl

@[simp] theorem mem_delete {set : OrderedSet Element} {element other : Element} :
    other ∈ set.delete element ↔ other ∈ set ∧ other ≠ element := by
  rw [mem_def, delete, List.mem_filter]
  simp [mem_def]

theorem length_add_le (set : OrderedSet Element) (element : Element) :
    (set.add element).elements.length ≤ set.elements.length + 1 := by
  unfold add
  split_ifs
  · exact Nat.le_succ _
  · exact Nat.le_of_eq List.length_append

theorem length_delete_lt {set : OrderedSet Element} {element : Element} (hmem : element ∈ set) :
    (set.delete element).elements.length < set.elements.length :=
  List.length_filter_lt_length_iff_exists.mpr ⟨element, hmem, by simp⟩

end OrderedSet

end PomboStorageNode.Library
