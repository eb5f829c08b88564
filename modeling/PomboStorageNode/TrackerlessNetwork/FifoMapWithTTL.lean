import Mathlib.Algebra.Order.Ring.Int
import PomboStorageNode.Library.OrderedMap

/-!
# A map with a maximum size and a time to live

`FifoMapWithTTL.ts`: the entries in a `Map`, and a queue of their keys that decides which entry is
dropped when the map is full. Entries whose time is over are deleted when they are looked up.

`Sound` is the class invariant of the source with the bound on the size. Its two assertions never
fail on a sound map: `set_spec` gives the entries after a `set`, with the entry that had to go, and
`values_spec` the ones after a read of all values.
-/

set_option autoImplicit false

namespace PomboStorageNode.TrackerlessNetwork

open Library

/-- An entry of the map. -/
structure Item (Value : Type*) where
  value : Value
  expiresAt : ℤ
  deriving DecidableEq

/-- The options that the constructor checks to be non-negative. -/
structure FifoMapWithTtlOptions where
  ttlInMs : ℕ
  maxSize : ℕ
  deriving DecidableEq

/-- `FifoMapWithTTL`; the drop queue holds the keys in the order in which they are dropped. -/
structure FifoMapWithTTL (Key Value : Type*) where
  items : OrderedMap Key (Item Value)
  dropQueue : List Key

namespace FifoMapWithTTL

variable {Key Value : Type*}

/-- A new map. -/
def create : FifoMapWithTTL Key Value := ⟨OrderedMap.empty, []⟩

/-- `items.size`. -/
def size (map : FifoMapWithTTL Key Value) : ℕ := map.items.entries.length

/-- The class invariant: both parts hold the same keys, and they are at most `maxSize`. -/
structure Sound (options : FifoMapWithTtlOptions) (map : FifoMapWithTTL Key Value) : Prop where
  dropQueue_eq : map.dropQueue = map.items.keys
  size_le : map.size ≤ options.maxSize

theorem sound_create (options : FifoMapWithTtlOptions) :
    (create : FifoMapWithTTL Key Value).Sound options :=
  ⟨rfl, Nat.zero_le _⟩

variable [DecidableEq Key]

/-- `delete`. -/
def delete (map : FifoMapWithTTL Key Value) (key : Key) : FifoMapWithTTL Key Value :=
  match map.items.get? key with
  | some _ => ⟨map.items.delete key, map.dropQueue.erase key⟩
  | none => map

/-- The part of `set` that makes room for the new entry, or `none` where the queue is asserted not
to be empty. -/
def makeRoom (options : FifoMapWithTtlOptions) (map : FifoMapWithTTL Key Value) :
    Option (FifoMapWithTTL Key Value) :=
  if map.size = options.maxSize then
    match map.dropQueue with
    | [] => none
    | keyToDel :: rest => some ⟨map.items.delete keyToDel, rest⟩
  else some map

/-- `set`, or `none` when an assertion fails. -/
def set (options : FifoMapWithTtlOptions) (now : ℤ) (map : FifoMapWithTTL Key Value) (key : Key)
    (value : Value) : Option (FifoMapWithTTL Key Value) :=
  if options.maxSize = 0 then some map
  else if options.maxSize < map.size then none
  else
    ((map.delete key).makeRoom options).map fun room ↦
      ⟨room.items.set key ⟨value, now + options.ttlInMs⟩, room.dropQueue ++ [key]⟩

/-- `get`: an entry whose time is over is deleted. -/
def get (now : ℤ) (map : FifoMapWithTTL Key Value) (key : Key) :
    Option Value × FifoMapWithTTL Key Value :=
  match map.items.get? key with
  | none => (none, map)
  | some item => if item.expiresAt ≤ now then (none, map.delete key) else (some item.value, map)

/-- The loop of `values` over the keys. -/
def getAll (now : ℤ) (map : FifoMapWithTTL Key Value) :
    List Key → List Value × FifoMapWithTTL Key Value
  | [] => ([], map)
  | key :: keys =>
    let found := map.get now key
    let others := getAll now found.2 keys
    (found.1.toList ++ others.1, others.2)

/-- `values`. -/
def values (now : ℤ) (map : FifoMapWithTTL Key Value) : List Value × FifoMapWithTTL Key Value :=
  map.getAll now map.items.keys

/-! ### What the operations do -/

/-- The entries after a `delete`. -/
theorem entries_delete (map : FifoMapWithTTL Key Value) (key : Key) :
    (map.delete key).items.entries = map.items.entries.filter fun entry ↦ entry.1 ≠ key := by
  unfold delete
  split
  · rfl
  case _ hnone =>
    rw [OrderedMap.get?_eq_none_iff] at hnone
    refine (List.filter_eq_self.mpr fun entry hentry ↦ ?_).symm
    rw [decide_eq_true_eq]
    intro heq
    exact hnone entry.2 (heq ▸ hentry)

/-- The keys of the filtered entries are the filtered keys. -/
private theorem map_fst_filter_ne (entries : List (Key × Item Value)) (key : Key) :
    (entries.filter fun entry ↦ entry.1 ≠ key).map Prod.fst =
      (entries.map Prod.fst).filter fun other ↦ other ≠ key := by
  rw [List.filter_map]
  rfl

theorem Sound.delete {options : FifoMapWithTtlOptions} {map : FifoMapWithTTL Key Value}
    (hsound : map.Sound options) (key : Key) : (map.delete key).Sound options where
  dropQueue_eq := by
    have hkeys : (map.delete key).items.keys = map.items.keys.filter fun other ↦ other ≠ key := by
      rw [OrderedMap.keys, entries_delete, map_fst_filter_ne, OrderedMap.keys]
    have herase : map.items.keys.erase key = map.items.keys.filter fun other ↦ other ≠ key := by
      rw [OrderedMap.keys, map.items.nodup_keys.erase_eq_filter key]
      refine List.filter_congr fun other _ ↦ ?_
      by_cases heq : other = key <;> simp [heq]
    rw [hkeys, ← herase]
    unfold FifoMapWithTTL.delete
    split
    · rw [hsound.dropQueue_eq]
    case _ hnone =>
      have hnotMem : key ∉ map.items.keys := by
        rw [OrderedMap.mem_keys_iff]
        simp [hnone]
      rw [hsound.dropQueue_eq]
      exact (List.erase_of_not_mem hnotMem).symm
  size_le := by
    have hle : (map.delete key).size ≤ map.size := by
      rw [size, entries_delete]
      exact List.length_filter_le _ _
    exact hle.trans hsound.size_le

/-- What `makeRoom` does on a sound map: the oldest entry goes if the map is full. -/
theorem makeRoom_spec {options : FifoMapWithTtlOptions} {map : FifoMapWithTTL Key Value}
    (hsound : map.Sound options) (hpos : 0 < options.maxSize) :
    ∃ (room : FifoMapWithTTL Key Value) (dropped : List (Key × Item Value)),
      map.makeRoom options = some room ∧ room.dropQueue = room.items.keys ∧
      room.size < options.maxSize ∧ map.items.entries = dropped ++ room.items.entries ∧
      dropped.length ≤ 1 ∧ (dropped ≠ [] → map.size = options.maxSize) := by
  unfold makeRoom
  split_ifs with hfull
  · have hqueue := hsound.dropQueue_eq
    have hlength : map.items.entries.length = options.maxSize := hfull
    match hentries : map.items.entries with
    | [] =>
      rw [hentries, List.length_nil] at hlength
      omega
    | entry :: rest =>
      have hkeys : map.dropQueue = entry.1 :: rest.map Prod.fst := by
        rw [hqueue, OrderedMap.keys, hentries, List.map_cons]
      have hnodup := map.items.nodup_keys
      rw [hentries, List.map_cons, List.nodup_cons] at hnodup
      have hrest : (map.items.delete entry.1).entries = rest := by
        show map.items.entries.filter _ = rest
        rw [hentries, List.filter_cons_of_neg (by simp), List.filter_eq_self]
        intro other hother
        rw [decide_eq_true_eq]
        intro heq
        exact hnodup.1 (List.mem_map.mpr ⟨other, hother, heq⟩)
      refine ⟨⟨map.items.delete entry.1, rest.map Prod.fst⟩, [entry], ?_, ?_, ?_, ?_, ?_, ?_⟩
      · rw [hkeys]
      · rw [OrderedMap.keys, hrest]
      · rw [size, hrest]
        rw [hentries, List.length_cons] at hlength
        omega
      · rw [hrest]
        rfl
      · exact le_refl 1
      · exact fun _ ↦ hfull
  · refine ⟨map, [], rfl, hsound.dropQueue_eq, ?_, rfl, Nat.zero_le 1, fun hne ↦ absurd rfl hne⟩
    exact lt_of_le_of_ne hsound.size_le hfull

/-- What `set` does on a sound map of positive size: the entry of the key goes, the oldest entry is
dropped if the map is full and has no entry for the key, and the new entry comes last. -/
theorem set_spec {options : FifoMapWithTtlOptions} {map : FifoMapWithTTL Key Value}
    (hsound : map.Sound options) (hpos : 0 < options.maxSize) (now : ℤ) (key : Key)
    (value : Value) :
    ∃ (after : FifoMapWithTTL Key Value) (dropped kept : List (Key × Item Value)),
      map.set options now key value = some after ∧ after.Sound options ∧
      after.items.entries = kept ++ [(key, ⟨value, now + options.ttlInMs⟩)] ∧
      map.items.entries.filter (fun entry ↦ entry.1 ≠ key) = dropped ++ kept ∧
      dropped.length ≤ 1 ∧
      (dropped ≠ [] → map.size = options.maxSize ∧ map.items.entries = dropped ++ kept) := by
  obtain ⟨room, dropped, hroom, hqueue, hsize, hentries, hone, hfull⟩ :=
    makeRoom_spec (hsound.delete key) hpos
  rw [entries_delete] at hentries
  have habsent : key ∉ room.items.entries.map Prod.fst := by
    intro hmem
    obtain ⟨entry, hentry, heq⟩ := List.mem_map.mp hmem
    have hkept : entry ∈ map.items.entries.filter fun entry ↦ entry.1 ≠ key := by
      rw [hentries]
      exact List.mem_append_right _ hentry
    have hne := (List.mem_filter.mp hkept).2
    rw [decide_eq_true_eq] at hne
    exact hne heq
  have hset : (room.items.set key ⟨value, now + options.ttlInMs⟩).entries =
      room.items.entries ++ [(key, ⟨value, now + options.ttlInMs⟩)] := if_neg habsent
  refine ⟨⟨room.items.set key ⟨value, now + options.ttlInMs⟩, room.dropQueue ++ [key]⟩, dropped,
    room.items.entries, ?_, ⟨?_, ?_⟩, hset, hentries, hone, ?_⟩
  · unfold set
    rw [if_neg hpos.ne', if_neg (Nat.not_lt.mpr hsound.size_le), hroom]
    rfl
  · rw [hqueue, OrderedMap.keys, OrderedMap.keys, hset, List.map_append, List.map_singleton]
  · rw [size, hset, List.length_append, List.length_singleton]
    exact hsize
  · intro hne
    have hdeleted := hfull hne
    have hbound := hsound.size_le
    rw [size, entries_delete] at hdeleted
    rw [size] at hbound ⊢
    have hle := List.length_filter_le (fun entry ↦ decide (entry.1 ≠ key)) map.items.entries
    -- The map was full without the entry of the key, so there was none.
    have hself := List.filter_sublist.eq_of_length (hdeleted.trans (by omega))
    exact ⟨by omega, hself.symm.trans hentries⟩

/-- The entries behind a `set` are entries from before, in their order, and possibly the new one
behind them. -/
theorem set_eq_some {options : FifoMapWithTtlOptions} {map after : FifoMapWithTTL Key Value}
    {now : ℤ} {key : Key} {value : Value} (hsound : map.Sound options)
    (hset : map.set options now key value = some after) :
    after.Sound options ∧ ∃ kept added, after.items.entries = kept ++ added ∧
      kept.Sublist map.items.entries ∧ added.length ≤ 1 ∧
      ∀ entry ∈ added, entry = (key, ⟨value, now + options.ttlInMs⟩) := by
  rcases Nat.eq_zero_or_pos options.maxSize with hzero | hpos
  · rw [set, if_pos hzero, Option.some.injEq] at hset
    subst hset
    exact ⟨hsound, map.items.entries, [], by simp, List.Sublist.refl _, Nat.zero_le 1, by simp⟩
  · obtain ⟨result, dropped, kept, hresult, hafter, hentries, hkept, -, -⟩ :=
      set_spec hsound hpos now key value
    rw [hresult, Option.some.injEq] at hset
    subst hset
    refine ⟨hafter, kept, _, hentries, ?_, le_refl 1, fun entry hentry ↦ ?_⟩
    · have hsub := List.sublist_append_right dropped kept
      rw [← hkept] at hsub
      exact hsub.trans List.filter_sublist
    · exact List.mem_singleton.mp hentry

/-- A `set` on a sound map does not fail. -/
theorem set_isSome {options : FifoMapWithTtlOptions} {map : FifoMapWithTTL Key Value}
    (hsound : map.Sound options) (now : ℤ) (key : Key) (value : Value) :
    (map.set options now key value).isSome := by
  rcases Nat.eq_zero_or_pos options.maxSize with hzero | hpos
  · rw [set, if_pos hzero]
    rfl
  · obtain ⟨result, dropped, kept, hresult, -⟩ := set_spec hsound hpos now key value
    rw [hresult]
    rfl

/-- What the loop of `values` does: the entries whose time is over go, the values of the others are
collected. -/
theorem getAll_spec {options : FifoMapWithTtlOptions} (now : ℤ) (keys : List Key)
    (map : FifoMapWithTTL Key Value) (hsound : map.Sound options) :
    (map.getAll now keys).2.Sound options ∧
    ((map.getAll now keys).2.items.entries = map.items.entries.filter fun entry ↦
      ¬(entry.1 ∈ keys ∧ entry.2.expiresAt ≤ now)) ∧
    ∀ value, value ∈ (map.getAll now keys).1 ↔
      ∃ entry ∈ map.items.entries, entry.1 ∈ keys ∧ now < entry.2.expiresAt ∧
        entry.2.value = value := by
  induction keys generalizing map with
  | nil => exact ⟨hsound, by simp [getAll], by simp [getAll]⟩
  | cons key keys ih =>
    rw [getAll]
    dsimp only
    unfold get
    split
    case _ hnone =>
      have habsent : ∀ entry ∈ map.items.entries, entry.1 ≠ key := by
        rintro entry hentry rfl
        exact OrderedMap.get?_eq_none_iff.mp hnone entry.2 hentry
      obtain ⟨hafter, hentries, hvalues⟩ := ih map hsound
      refine ⟨hafter, ?_, fun value ↦ ?_⟩
      · rw [hentries]
        refine List.filter_congr fun entry hentry ↦ ?_
        simp [habsent entry hentry]
      · rw [Option.toList_none, List.nil_append, hvalues]
        refine exists_congr fun entry ↦ and_congr_right fun hentry ↦ ?_
        simp [habsent entry hentry]
    case _ item hitem =>
      have hmem := OrderedMap.get?_eq_some_iff.mp hitem
      have hunique : ∀ entry ∈ map.items.entries, entry.1 = key → entry.2 = item := by
        rintro entry hentry rfl
        exact map.items.value_unique hentry hmem
      split_ifs with hexpired
      · obtain ⟨hafter, hentries, hvalues⟩ := ih (map.delete key) (hsound.delete key)
        refine ⟨hafter, ?_, fun value ↦ ?_⟩
        · rw [hentries, entries_delete, List.filter_filter]
          refine List.filter_congr fun entry hentry ↦ ?_
          by_cases heq : entry.1 = key
          · simp [heq, hunique entry hentry heq, hexpired]
          · simp [heq]
        · rw [Option.toList_none, List.nil_append, hvalues]
          refine exists_congr fun entry ↦ ?_
          rw [entries_delete, List.mem_filter, and_assoc]
          refine and_congr_right fun hentry ↦ ?_
          by_cases heq : entry.1 = key
          · simp [heq, hunique entry hentry heq, hexpired]
          · simp [heq]
      · obtain ⟨hafter, hentries, hvalues⟩ := ih map hsound
        refine ⟨hafter, ?_, fun value ↦ ?_⟩
        · rw [hentries]
          refine List.filter_congr fun entry hentry ↦ ?_
          by_cases heq : entry.1 = key
          · simp [hunique entry hentry heq, hexpired]
          · simp [heq]
        · rw [Option.toList_some, List.singleton_append, List.mem_cons, hvalues]
          constructor
          · rintro (rfl | ⟨entry, hentry, hkey, htime, hvalue⟩)
            · exact ⟨(key, item), hmem, List.mem_cons_self, not_le.mp hexpired, rfl⟩
            · exact ⟨entry, hentry, List.mem_cons_of_mem key hkey, htime, hvalue⟩
          · rintro ⟨entry, hentry, hkey, htime, hvalue⟩
            rcases List.mem_cons.mp hkey with heq | hkey
            · exact Or.inl (hunique entry hentry heq ▸ hvalue.symm)
            · exact Or.inr ⟨entry, hentry, hkey, htime, hvalue⟩

/-- What `values` does: the entries whose time is over go, and the values of the others are
returned. -/
theorem values_spec {options : FifoMapWithTtlOptions} (now : ℤ) {map : FifoMapWithTTL Key Value}
    (hsound : map.Sound options) :
    (map.values now).2.Sound options ∧
    ((map.values now).2.items.entries =
      map.items.entries.filter fun entry ↦ ¬entry.2.expiresAt ≤ now) ∧
    ∀ value, value ∈ (map.values now).1 ↔
      ∃ entry ∈ map.items.entries, now < entry.2.expiresAt ∧ entry.2.value = value := by
  have hkey : ∀ entry ∈ map.items.entries, entry.1 ∈ map.items.keys := fun entry hentry ↦
    List.mem_map.mpr ⟨entry, hentry, rfl⟩
  obtain ⟨hafter, hentries, hvalues⟩ := getAll_spec now map.items.keys map hsound
  refine ⟨hafter, ?_, fun value ↦ ?_⟩
  · rw [values, hentries]
    refine List.filter_congr fun entry hentry ↦ ?_
    simp [hkey entry hentry]
  · rw [values, hvalues]
    refine exists_congr fun entry ↦ and_congr_right fun hentry ↦ ?_
    simp [hkey entry hentry]

end FifoMapWithTTL

end PomboStorageNode.TrackerlessNetwork
