import Mathlib.Algebra.Order.Ring.Int
import PomboStorageNode.Library.OrderedMap
import PomboStorageNode.Library.Transition
import PomboStorageNode.TrackerlessNetwork.FifoMapWithTTL

/-!
# The history of a map with a maximum size and a time to live

`FifoMapWithTTL.ts` keeps, with each entry, its node in the queue that decides which entry is
dropped when the map is full. Here a node has the number with which it was created, and a map has
its history: what was stored and removed, and the calls of `onItemDropped`.

`live` reads off a history what is to be in the map: the stored entries that nothing has happened to
since, in the order in which they were stored. `Sound` says that the items and the queue are these
entries, `refines_of_reachable` what follows for every run: the operations are those of a bounded
queue of entries with expiry.
-/

set_option autoImplicit false

namespace PomboStorageNode.TrackerlessNetwork.History

open Library

variable {Key Value : Type}

/-! ### Histories -/

/-- What `set` stores, with the time and the number of the node. -/
structure Stored (Key Value : Type) where
  key : Key
  value : Value
  setAt : ℤ
  dropQueueNode : ℕ

/-- What happens to an entry: it is stored; it is removed by `delete`, which is also called for an
entry whose time is over when it is read, and for a key that is set again; it is dropped to make
room. -/
inductive Occurrence (Key Value : Type)
  | stored (entry : Stored Key Value)
  | removed (key : Key)
  | evicted (key : Key)

namespace Occurrence

/-- The key to which something happens. -/
def key : Occurrence Key Value → Key
  | .stored entry => entry.key
  | .removed key | .evicted key => key

/-- The entry that is stored. -/
def entries : Occurrence Key Value → List (Stored Key Value)
  | .stored entry => [entry]
  | .removed _ | .evicted _ => []

end Occurrence

variable [DecidableEq Key]

/-- The stored entries to whose keys nothing happens later. -/
def live : List (Occurrence Key Value) → List (Stored Key Value)
  | [] => []
  | occurrence :: later =>
    occurrence.entries.filter (fun entry ↦ ∀ other ∈ later, other.key ≠ entry.key) ++ live later

/-- The number of times that a key was stored. -/
def storedCount (key : Key) (log : List (Occurrence Key Value)) : ℕ :=
  ((log.flatMap Occurrence.entries).map Stored.key).count key

/-- Something happens: the entry of that key is not live any more. -/
theorem live_concat (log : List (Occurrence Key Value)) (occurrence : Occurrence Key Value) :
    live (log ++ [occurrence]) =
      (live log).filter (fun entry ↦ entry.key ≠ occurrence.key) ++ occurrence.entries := by
  induction log with
  | nil => simp [live]
  | cons first later ih =>
    rw [List.cons_append, live, ih, live, List.filter_append, List.append_assoc]
    congr 1
    rw [List.filter_filter]
    refine List.filter_congr fun entry _ ↦ ?_
    rw [← Bool.decide_and, decide_eq_decide]
    simp only [List.forall_mem_append, List.forall_mem_singleton, ne_eq, eq_comm, and_comm]

/-- The number of times that a key was stored, when one more thing has happened. -/
theorem storedCount_concat (key : Key) (log : List (Occurrence Key Value))
    (occurrence : Occurrence Key Value) :
    storedCount key (log ++ [occurrence]) =
      storedCount key log + (occurrence.entries.map Stored.key).count key := by
  rw [storedCount, List.flatMap_append, List.map_append, List.count_append, List.flatMap_singleton]
  rfl

/-! ### The map -/

/-- `Item`. -/
structure QueuedItem (Value : Type) where
  value : Value
  dropQueueNode : ℕ
  expiresAt : ℤ

/-- `FifoMapWithTTL`. The queue has its nodes with their numbers, `created` is the number of nodes
that were created, `dropped` the keys with which `onItemDropped` was called. -/
structure QueuedMap (Key Value : Type) where
  items : OrderedMap Key (QueuedItem Value)
  dropQueue : List (ℕ × Key)
  created : ℕ
  dropped : List Key
  log : List (Occurrence Key Value)

namespace QueuedMap

/-- A new map. -/
def create : QueuedMap Key Value := ⟨.empty, [], 0, [], []⟩

/-- `delete`. -/
def delete (map : QueuedMap Key Value) (key : Key) : QueuedMap Key Value :=
  match map.items.get? key with
  | none => { map with log := map.log ++ [.removed key] }
  | some item => { map with
    items := map.items.delete key
    dropQueue := map.dropQueue.filter fun node ↦ node.1 ≠ item.dropQueueNode
    dropped := map.dropped ++ [key]
    log := map.log ++ [.removed key] }

/-- The part of `set` that makes room for the new entry. -/
def makeRoom (options : FifoMapWithTtlOptions) (map : QueuedMap Key Value) :
    Except String (QueuedMap Key Value) :=
  if map.items.entries.length = options.maxSize then
    match map.dropQueue with
    | [] => .error "assertion error: queue empty but still have items"
    | (_, keyToDel) :: rest => .ok { map with
      items := map.items.delete keyToDel
      dropQueue := rest
      dropped := map.dropped ++ [keyToDel]
      log := map.log ++ [.evicted keyToDel] }
  else .ok map

/-- The part of `set` that adds the entry. -/
def add (options : FifoMapWithTtlOptions) (now : ℤ) (map : QueuedMap Key Value) (key : Key)
    (value : Value) : QueuedMap Key Value := { map with
  items := map.items.set key ⟨value, map.created, now + options.ttlInMs⟩
  dropQueue := map.dropQueue ++ [(map.created, key)]
  created := map.created + 1
  log := map.log ++ [.stored ⟨key, value, now, map.created⟩] }

/-- `set`. -/
def set (options : FifoMapWithTtlOptions) (now : ℤ) (map : QueuedMap Key Value) (key : Key)
    (value : Value) : Except String (QueuedMap Key Value) :=
  if options.maxSize = 0 then .ok map
  else if options.maxSize < map.items.entries.length then
    .error "assertion error: maximum size exceeded"
  else ((map.delete key).makeRoom options).map fun room ↦ room.add options now key value

/-- `get`. -/
def get (now : ℤ) (map : QueuedMap Key Value) (key : Key) :
    Option Value × QueuedMap Key Value :=
  match map.items.get? key with
  | none => (none, map)
  | some item => if item.expiresAt ≤ now then (none, map.delete key) else (some item.value, map)

/-- The loop of `values`, over the keys with the times at which they are read. -/
def getAll (map : QueuedMap Key Value) : List (Key × ℤ) → List Value × QueuedMap Key Value
  | [] => ([], map)
  | (key, now) :: reads =>
    let found := map.get now key
    let others := found.2.getAll reads
    (found.1.toList ++ others.1, others.2)

/-- `values`, with the time of each read. -/
def values (times : ℕ → ℤ) (map : QueuedMap Key Value) : List Value × QueuedMap Key Value :=
  map.getAll (map.items.keys.zipIdx.map fun read ↦ (read.1, times read.2))

/-- The entry of the items for a stored one. -/
def item (options : FifoMapWithTtlOptions) (entry : Stored Key Value) :
    Key × QueuedItem Value :=
  (entry.key, ⟨entry.value, entry.dropQueueNode, entry.setAt + options.ttlInMs⟩)

/-- The class invariant: the items and the queue have the live entries of the history, in its order,
and `onItemDropped` was called for every other one. -/
structure Sound (options : FifoMapWithTtlOptions) (map : QueuedMap Key Value) : Prop where
  items_eq : map.items.entries = (live map.log).map (item options)
  dropQueue_eq : map.dropQueue = (live map.log).map fun entry ↦ (entry.dropQueueNode, entry.key)
  nodup_nodes : ((live map.log).map Stored.dropQueueNode).Nodup
  node_lt : ∀ entry ∈ live map.log, entry.dropQueueNode < map.created
  length_le : (live map.log).length ≤ options.maxSize
  count_eq : ∀ key, storedCount key map.log =
    map.dropped.count key + ((live map.log).map Stored.key).count key

variable {options : FifoMapWithTtlOptions} {map : QueuedMap Key Value}

theorem sound_create : (create : QueuedMap Key Value).Sound options :=
  ⟨rfl, rfl, .nil, nofun, Nat.zero_le _, fun _ ↦ rfl⟩

/-- Entries leave a map, and `onItemDropped` is called for each of them. -/
structure Loses (map after : QueuedMap Key Value) (left : List (Stored Key Value)) : Prop where
  perm : (live map.log).Perm (left ++ live after.log)
  dropped_eq : after.dropped = map.dropped ++ left.map Stored.key

theorem Loses.trans {middle after : QueuedMap Key Value} {left more : List (Stored Key Value)}
    (hfirst : Loses map middle left) (hsecond : Loses middle after more) :
    Loses map after (left ++ more) where
  perm := by
    rw [List.append_assoc]
    exact hfirst.perm.trans (hsecond.perm.append_left left)
  dropped_eq := by
    rw [hsecond.dropped_eq, hfirst.dropped_eq, List.map_append, List.append_assoc]

/-- What `delete` and `makeRoom` do: the entry of a key, if there is one, leaves the items and the
queue, and nothing is stored. -/
structure Removes (key : Key) (map after : QueuedMap Key Value) : Prop where
  live_eq : live after.log = (live map.log).filter fun entry ↦ entry.key ≠ key
  items_eq : after.items.entries = map.items.entries.filter fun entry ↦ entry.1 ≠ key
  dropQueue_eq : after.dropQueue = map.dropQueue.filter fun node ↦ node.2 ≠ key
  created_eq : after.created = map.created
  storedCount_eq : ∀ other, storedCount other after.log = storedCount other map.log
  dropped_eq : after.dropped = map.dropped ++
    ((live map.log).filter fun entry ↦ entry.key = key).map Stored.key

theorem Removes.loses {key : Key} {after : QueuedMap Key Value} (h : Removes key map after) :
    Loses map after ((live map.log).filter fun entry ↦ entry.key = key) where
  perm := by
    rw [h.live_eq]
    refine (List.filter_append_perm (fun entry ↦ decide (entry.key = key)) _).symm.trans ?_
    simp only [ne_eq, decide_not]
    exact .rfl
  dropped_eq := h.dropped_eq

namespace Sound

theorem keys_eq (h : map.Sound options) : map.items.keys = (live map.log).map Stored.key := by
  rw [OrderedMap.keys, h.items_eq, List.map_map]
  rfl

theorem nodup_keys (h : map.Sound options) : ((live map.log).map Stored.key).Nodup :=
  h.keys_eq ▸ map.items.nodup_keys

theorem length_eq (h : map.Sound options) : map.items.entries.length = (live map.log).length := by
  rw [h.items_eq, List.length_map]

/-- A lookup finds exactly the live entries. -/
theorem get?_eq_some_iff (h : map.Sound options) {key : Key} {found : QueuedItem Value} :
    map.items.get? key = some found ↔
      ∃ entry ∈ live map.log, item options entry = (key, found) := by
  rw [OrderedMap.get?_eq_some_iff, h.items_eq, List.mem_map]

theorem get?_eq_none_iff (h : map.Sound options) {key : Key} :
    map.items.get? key = none ↔ ∀ entry ∈ live map.log, entry.key ≠ key := by
  rw [← Option.not_isSome_iff_eq_none, ← OrderedMap.has, Bool.not_eq_true, ← Bool.not_eq_true,
    OrderedMap.has_iff_mem_keys, h.keys_eq]
  simp

/-- A live entry, and those of other keys around it. -/
theorem exists_split (h : map.Sound options) {entry : Stored Key Value}
    (hmem : entry ∈ live map.log) :
    ∃ before behind, live map.log = before ++ entry :: behind ∧
      ∀ other ∈ before ++ behind, other.key ≠ entry.key := by
  obtain ⟨before, behind, hsplit⟩ := List.append_of_mem hmem
  refine ⟨before, behind, hsplit, ?_⟩
  have hnodup := h.nodup_keys
  rw [hsplit, List.map_append, List.map_cons, List.nodup_middle, List.nodup_cons,
    ← List.map_append] at hnodup
  intro other hother heq
  exact hnodup.1 (List.mem_map.mpr ⟨other, hother, heq⟩)

theorem filter_key_eq (h : map.Sound options) {entry : Stored Key Value}
    (hmem : entry ∈ live map.log) :
    ((live map.log).filter fun other ↦ other.key = entry.key) = [entry] := by
  obtain ⟨before, behind, hsplit, hothers⟩ := h.exists_split hmem
  rw [hsplit, List.filter_append, List.filter_cons_of_pos (by simp),
    List.filter_eq_nil_iff.mpr, List.filter_eq_nil_iff.mpr, List.nil_append]
  · exact fun other hother ↦ by simpa using hothers other (List.mem_append_right _ hother)
  · exact fun other hother ↦ by simpa using hothers other (List.mem_append_left _ hother)

theorem node_inj (h : map.Sound options) {first second : Stored Key Value}
    (hfirst : first ∈ live map.log) (hsecond : second ∈ live map.log) :
    first.dropQueueNode = second.dropQueueNode ↔ first.key = second.key := by
  constructor
  · intro hnodes
    rw [List.inj_on_of_nodup_map h.nodup_nodes hfirst hsecond hnodes]
  · intro hkeys
    rw [List.inj_on_of_nodup_map h.nodup_keys hfirst hsecond hkeys]

theorem removes {after : QueuedMap Key Value} {key : Key} (h : map.Sound options)
    (hremoves : Removes key map after) : after.Sound options where
  items_eq := by
    rw [hremoves.items_eq, h.items_eq, hremoves.live_eq, List.filter_map]
    rfl
  dropQueue_eq := by
    rw [hremoves.dropQueue_eq, h.dropQueue_eq, hremoves.live_eq, List.filter_map]
    rfl
  nodup_nodes := by
    rw [hremoves.live_eq]
    exact h.nodup_nodes.sublist (List.filter_sublist.map _)
  node_lt := by
    rw [hremoves.live_eq, hremoves.created_eq]
    exact fun entry hmem ↦ h.node_lt entry (List.mem_of_mem_filter hmem)
  length_le := by
    rw [hremoves.live_eq]
    exact (List.length_filter_le _ _).trans h.length_le
  count_eq := by
    intro other
    have hcount := (hremoves.loses.perm.map Stored.key).count_eq other
    rw [List.map_append, List.count_append] at hcount
    rw [hremoves.storedCount_eq, h.count_eq, hcount, hremoves.dropped_eq, List.count_append,
      Nat.add_assoc]

/-- `delete` removes the entry of its key. -/
theorem removes_delete (h : map.Sound options) (key : Key) : Removes key map (map.delete key) := by
  have hcount : ∀ other, storedCount other (map.log ++ [.removed key]) =
      storedCount other map.log := by
    intro other
    rw [storedCount_concat]
    rfl
  have hlive : live (map.log ++ [.removed key]) =
      (live map.log).filter fun entry ↦ entry.key ≠ key := by
    rw [live_concat]
    exact List.append_nil _
  unfold delete
  split
  case _ hnone =>
    rw [h.get?_eq_none_iff] at hnone
    refine ⟨hlive, ?_, ?_, rfl, hcount, ?_⟩
    · show map.items.entries = _
      rw [h.items_eq, List.filter_map]
      congr 1
      refine (List.filter_eq_self.mpr ?_).symm
      exact fun entry hmem ↦ decide_eq_true (hnone entry hmem)
    · show map.dropQueue = _
      rw [h.dropQueue_eq, List.filter_map]
      congr 1
      refine (List.filter_eq_self.mpr ?_).symm
      exact fun entry hmem ↦ decide_eq_true (hnone entry hmem)
    · show map.dropped = _
      rw [List.filter_eq_nil_iff.mpr fun entry hmem ↦ by simpa using hnone entry hmem,
        List.map_nil, List.append_nil]
  case _ found hfound =>
    obtain ⟨entry, hmem, hitem⟩ := h.get?_eq_some_iff.mp hfound
    obtain ⟨rfl, rfl⟩ := Prod.mk.inj hitem
    refine ⟨hlive, rfl, ?_, rfl, hcount, ?_⟩
    · show map.dropQueue.filter _ = map.dropQueue.filter _
      refine List.filter_congr fun node hnode ↦ ?_
      rw [h.dropQueue_eq] at hnode
      obtain ⟨other, hother, rfl⟩ := List.mem_map.mp hnode
      rw [decide_eq_decide, ne_eq, ne_eq, not_iff_not]
      exact h.node_inj hother hmem
    · show map.dropped ++ [entry.key] = _
      rw [h.filter_key_eq hmem]
      rfl

theorem delete (h : map.Sound options) (key : Key) : (map.delete key).Sound options :=
  h.removes (h.removes_delete key)

end Sound

theorem log_delete (map : QueuedMap Key Value) (key : Key) :
    (map.delete key).log = map.log ++ [.removed key] := by
  unfold delete
  split <;> rfl

/-- The entry that `makeRoom` drops: the one that was stored first, when there is no room. -/
def evictions (options : FifoMapWithTtlOptions) (entries : List (Stored Key Value)) :
    List (Stored Key Value) :=
  if entries.length = options.maxSize then entries.head?.toList else []

/-- `makeRoom` on a sound map. -/
theorem makeRoom_spec (h : map.Sound options) (hpos : 0 < options.maxSize) :
    ∃ room, map.makeRoom options = .ok room ∧ room.Sound options ∧
      (live room.log).length < options.maxSize ∧ room.created = map.created ∧
      Loses map room (evictions options (live map.log)) ∧
      room.log = map.log ++
        (evictions options (live map.log)).map fun entry ↦ .evicted entry.key := by
  unfold makeRoom evictions
  rw [h.length_eq]
  split_ifs with hfull
  · match hlive : live map.log with
    | [] =>
      rw [hlive, List.length_nil] at hfull
      omega
    | first :: others =>
      have hmem : first ∈ live map.log := hlive ▸ List.mem_cons_self
      have hne : ∀ other ∈ others, other.key ≠ first.key := by
        have hnodup := h.nodup_keys
        rw [hlive, List.map_cons, List.nodup_cons] at hnodup
        intro other hother heq
        exact hnodup.1 (List.mem_map.mpr ⟨other, hother, heq⟩)
      have hfilter : ((live map.log).filter fun entry ↦ entry.key ≠ first.key) = others := by
        rw [hlive, List.filter_cons_of_neg (by simp), List.filter_eq_self]
        exact fun other hother ↦ decide_eq_true (hne other hother)
      have hqueue : map.dropQueue = (first.dropQueueNode, first.key) ::
          others.map fun entry ↦ (entry.dropQueueNode, entry.key) := by
        rw [h.dropQueue_eq, hlive, List.map_cons]
      have hremoves : Removes first.key map { map with
          items := map.items.delete first.key
          dropQueue := others.map fun entry ↦ (entry.dropQueueNode, entry.key)
          dropped := map.dropped ++ [first.key]
          log := map.log ++ [.evicted first.key] } := by
        refine ⟨?_, rfl, ?_, rfl, ?_, ?_⟩
        · rw [live_concat]
          exact List.append_nil _
        · rw [h.dropQueue_eq, List.filter_map]
          exact congrArg _ hfilter.symm
        · intro other
          rw [storedCount_concat]
          rfl
        · rw [h.filter_key_eq hmem]
          rfl
      have hloses := hremoves.loses
      rw [h.filter_key_eq hmem] at hloses
      refine ⟨_, ?_, h.removes hremoves, ?_, rfl, hloses, rfl⟩
      · rw [hqueue]
      · rw [hremoves.live_eq, hfilter]
        rw [hlive, List.length_cons] at hfull
        omega
  · refine ⟨map, rfl, h, lt_of_le_of_ne h.length_le hfull, rfl, ⟨.rfl, ?_⟩, ?_⟩
    · rw [List.map_nil, List.append_nil]
    · rw [List.map_nil, List.append_nil]

/-- `add` on a sound map with room, which has no entry of the key. -/
theorem Sound.add (h : map.Sound options) (now : ℤ) {key : Key} (value : Value)
    (hroom : (live map.log).length < options.maxSize)
    (habsent : ∀ entry ∈ live map.log, entry.key ≠ key) :
    (map.add options now key value).Sound options ∧
      live (map.add options now key value).log =
        live map.log ++ [⟨key, value, now, map.created⟩] := by
  have hlive : live (map.add options now key value).log =
      live map.log ++ [⟨key, value, now, map.created⟩] := by
    show live (map.log ++ [.stored ⟨key, value, now, map.created⟩]) = _
    rw [live_concat]
    congr 1
    exact List.filter_eq_self.mpr fun entry hmem ↦ decide_eq_true (habsent entry hmem)
  refine ⟨⟨?_, ?_, ?_, ?_, ?_, ?_⟩, hlive⟩
  · have hkey : key ∉ map.items.entries.map Prod.fst := by
      show key ∉ map.items.keys
      rw [h.keys_eq]
      intro hmem
      obtain ⟨entry, hentry, heq⟩ := List.mem_map.mp hmem
      exact habsent entry hentry heq
    have hset : (map.add options now key value).items.entries = map.items.entries ++
        [(key, ⟨value, map.created, now + options.ttlInMs⟩)] := if_neg hkey
    rw [hset, h.items_eq, hlive, List.map_append]
    rfl
  · rw [hlive, List.map_append, ← h.dropQueue_eq]
    rfl
  · rw [hlive, List.map_append, List.nodup_append]
    refine ⟨h.nodup_nodes, List.nodup_singleton _, ?_⟩
    rintro node hnode other hother rfl
    obtain ⟨entry, hentry, rfl⟩ := List.mem_map.mp hnode
    exact absurd (List.mem_singleton.mp hother) (h.node_lt entry hentry).ne
  · rw [hlive]
    intro entry hentry
    rcases List.mem_append.mp hentry with hbefore | hnew
    · exact (h.node_lt entry hbefore).trans (Nat.lt_succ_self _)
    · rw [List.mem_singleton.mp hnew]
      exact Nat.lt_succ_self _
  · rw [hlive, List.length_append, List.length_singleton]
    exact hroom
  · intro other
    show storedCount other (map.log ++ [.stored ⟨key, value, now, map.created⟩]) = _
    rw [hlive, storedCount_concat, h.count_eq, List.map_append, List.count_append, Nat.add_assoc]
    rfl

/-! ### Reads -/

/-- The time of an entry is over. -/
def isExpired (options : FifoMapWithTtlOptions) (now : ℤ) (entry : Stored Key Value) : Bool :=
  entry.setAt + options.ttlInMs ≤ now

theorem get_of_absent (h : map.Sound options) (now : ℤ) {key : Key}
    (habsent : ∀ entry ∈ live map.log, entry.key ≠ key) : map.get now key = (none, map) := by
  unfold get
  rw [h.get?_eq_none_iff.mpr habsent]

/-- A read of the key of a live entry. -/
theorem get_of_mem (h : map.Sound options) (now : ℤ) {entry : Stored Key Value}
    (hmem : entry ∈ live map.log) : map.get now entry.key =
      if isExpired options now entry then (none, map.delete entry.key)
      else (some entry.value, map) := by
  unfold get
  rw [h.get?_eq_some_iff.mpr ⟨entry, hmem, rfl⟩, isExpired]
  simp only [decide_eq_true_eq]

theorem get_eq_some_iff (h : map.Sound options) {now : ℤ} {key : Key} {value : Value} :
    (map.get now key).1 = some value ↔
      ∃ entry ∈ live map.log, entry.key = key ∧ entry.value = value ∧
        now < entry.setAt + options.ttlInMs := by
  constructor
  · intro hget
    by_cases habsent : ∀ entry ∈ live map.log, entry.key ≠ key
    · rw [get_of_absent h now habsent] at hget
      cases hget
    · simp only [not_forall, not_not] at habsent
      obtain ⟨entry, hmem, rfl⟩ := habsent
      rw [get_of_mem h now hmem] at hget
      split_ifs at hget with hexpired
      rw [isExpired, decide_eq_true_eq, not_le] at hexpired
      exact ⟨entry, hmem, rfl, Option.some.inj hget, hexpired⟩
  · rintro ⟨entry, hmem, rfl, rfl, htime⟩
    rw [get_of_mem h now hmem, if_neg]
    rw [isExpired, decide_eq_true_eq, not_le]
    exact htime

/-- Reads that find live entries of different keys: the entries whose time is over leave the map,
and the values of the others are returned. -/
theorem getAll_spec (h : map.Sound options) {reads : List (Stored Key Value × ℤ)}
    (hmem : ∀ read ∈ reads, read.1 ∈ live map.log)
    (hnodup : (reads.map fun read ↦ read.1.key).Nodup) :
    ∃ after left, map.getAll (reads.map fun read ↦ (read.1.key, read.2)) =
        ((reads.filter fun read ↦ !isExpired options read.2 read.1).map fun read ↦ read.1.value,
          after) ∧
      left = (reads.filter fun read ↦ isExpired options read.2 read.1).map Prod.fst ∧
      after.Sound options ∧ Loses map after left ∧
      after.log = map.log ++ left.map fun entry ↦ .removed entry.key := by
  induction reads generalizing map with
  | nil =>
    refine ⟨map, [], rfl, rfl, h, ⟨.rfl, ?_⟩, ?_⟩
    · rw [List.map_nil, List.append_nil]
    · rw [List.map_nil, List.append_nil]
  | cons read reads ih =>
    obtain ⟨entry, now⟩ := read
    rw [List.map_cons, List.nodup_cons] at hnodup
    have hentry := hmem (entry, now) List.mem_cons_self
    rw [List.map_cons, getAll, get_of_mem h now hentry]
    by_cases hexpired : isExpired options now entry = true
    · have hremoves := h.removes_delete entry.key
      have hothers : ∀ read ∈ reads, read.1 ∈ live (map.delete entry.key).log := by
        intro read hread
        rw [hremoves.live_eq, List.mem_filter]
        refine ⟨hmem read (List.mem_cons_of_mem _ hread), decide_eq_true ?_⟩
        intro heq
        exact hnodup.1 (List.mem_map.mpr ⟨read, hread, heq⟩)
      obtain ⟨after, left, hgets, hleft, hafter, hloses, hlog⟩ :=
        ih (h.delete entry.key) hothers hnodup.2
      have hfirst := hremoves.loses
      rw [h.filter_key_eq hentry] at hfirst
      refine ⟨after, entry :: left, ?_, ?_, hafter, hfirst.trans hloses, ?_⟩
      · rw [if_pos hexpired]
        show (_, _) = _
        rw [hgets, List.filter_cons_of_neg (by simpa using hexpired)]
        rfl
      · rw [List.filter_cons_of_pos (by exact hexpired), List.map_cons, hleft]
      · rw [hlog, log_delete, List.append_assoc]
        rfl
    · obtain ⟨after, left, hgets, hleft, hafter, hloses, hlog⟩ :=
        ih h (fun read hread ↦ hmem read (List.mem_cons_of_mem _ hread)) hnodup.2
      refine ⟨after, left, ?_, ?_, hafter, hloses, hlog⟩
      · rw [if_neg hexpired]
        show (_, _) = _
        rw [hgets, List.filter_cons_of_pos (by simpa using hexpired)]
        rfl
      · rw [List.filter_cons_of_neg (by exact hexpired), hleft]

/-! ### Runs -/

/-- A call, with the times at which the time is read. -/
inductive Event (Key Value : Type)
  | set (now : ℤ) (key : Key) (value : Value)
  | delete (key : Key)
  | get (now : ℤ) (key : Key)
  | values (times : ℕ → ℤ)

/-- The map after a call. -/
def perform (options : FifoMapWithTtlOptions) (map : QueuedMap Key Value) :
    Event Key Value → Except String (QueuedMap Key Value)
  | .set now key value => map.set options now key value
  | .delete key => .ok (map.delete key)
  | .get now key => .ok (map.get now key).2
  | .values times => .ok (map.values times).2

/-- The map after a call, or `none` when an assertion fails. -/
def step (options : FifoMapWithTtlOptions) (map : QueuedMap Key Value)
    (event : Event Key Value) : Option (QueuedMap Key Value) :=
  (map.perform options event).toOption

/-- What is to happen at a call, for the entries of a bounded queue with expiry: `set` stores an
entry anew, and drops the one that was stored first exactly when there are `maxSize` others; a read
removes what it finds expired. -/
def occurrences (options : FifoMapWithTtlOptions) (entries : List (Stored Key Value))
    (created : ℕ) : Event Key Value → List (Occurrence Key Value)
  | .set now key value =>
    if options.maxSize = 0 then []
    else
      let others := entries.filter fun entry ↦ entry.key ≠ key
      [.removed key] ++ (evictions options others).map (fun entry ↦ .evicted entry.key) ++
        [.stored ⟨key, value, now, created⟩]
  | .delete key => [.removed key]
  | .get now key =>
    (entries.filter fun entry ↦ entry.key = key && isExpired options now entry).map
      fun entry ↦ .removed entry.key
  | .values times =>
    (entries.zipIdx.filter fun read ↦ isExpired options (times read.2) read.1).map
      fun read ↦ .removed read.1.key

/-- What happens at a call: the given things, and `onItemDropped` is called once for each entry that
leaves or is replaced. -/
structure Performs (options : FifoMapWithTtlOptions) (map : QueuedMap Key Value)
    (happened : List (Occurrence Key Value)) (after : QueuedMap Key Value) : Prop where
  log_eq : after.log = map.log ++ happened
  drops : ∃ left kept, (live map.log).Perm (left ++ kept) ∧
    live after.log = kept ++ happened.flatMap Occurrence.entries ∧
    after.dropped = map.dropped ++ left.map Stored.key

/-- A call that stores nothing. -/
theorem Loses.performs {after : QueuedMap Key Value} {left : List (Stored Key Value)}
    {happened : List (Occurrence Key Value)} (h : Loses map after left)
    (hlog : after.log = map.log ++ happened)
    (hnothing : happened.flatMap Occurrence.entries = []) :
    Performs options map happened after where
  log_eq := hlog
  drops := ⟨left, live after.log, h.perm, by rw [hnothing, List.append_nil], h.dropped_eq⟩

theorem set_spec (h : map.Sound options) (now : ℤ) (key : Key) (value : Value) :
    ∃ after, map.set options now key value = .ok after ∧ after.Sound options ∧
      Performs options map
        (occurrences options (live map.log) map.created (.set now key value)) after := by
  unfold set
  rcases Nat.eq_zero_or_pos options.maxSize with hzero | hpos
  · rw [if_pos hzero]
    have hnothing : occurrences options (live map.log) map.created (.set now key value) = [] :=
      if_pos hzero
    refine ⟨map, rfl, h, ?_, [], live map.log, .rfl, ?_, ?_⟩
    · rw [hnothing, List.append_nil]
    · rw [hnothing, List.flatMap_nil, List.append_nil]
    · rw [List.map_nil, List.append_nil]
  · have hremoves := h.removes_delete key
    obtain ⟨room, hroom, hsound, hlength, hcreated, hloses, hlog⟩ :=
      makeRoom_spec (h.delete key) hpos
    rw [hremoves.live_eq] at hloses hlog
    have hdrops := hremoves.loses.trans hloses
    have habsent : ∀ entry ∈ live room.log, entry.key ≠ key := by
      intro entry hentry
      have hother := hloses.perm.mem_iff.mpr (List.mem_append_right _ hentry)
      rw [hremoves.live_eq, List.mem_filter] at hother
      exact of_decide_eq_true hother.2
    have hadd := hsound.add now value hlength habsent
    have hcreated : room.created = map.created := hcreated.trans hremoves.created_eq
    rw [if_neg hpos.ne', if_neg (Nat.not_lt.mpr (h.length_eq.trans_le h.length_le)), hroom]
    refine ⟨room.add options now key value, rfl, hadd.1, ?_⟩
    rw [occurrences, if_neg hpos.ne', ← hcreated]
    refine ⟨?_, _, live room.log, hdrops.perm, ?_, hdrops.dropped_eq⟩
    · show room.log ++ [.stored ⟨key, value, now, room.created⟩] = _
      rw [hlog, log_delete]
      simp only [List.append_assoc]
    · rw [hadd.2]
      simp [Occurrence.entries, List.flatMap_append, List.flatMap_map]

/-- A call that leaves a map alone. -/
theorem performs_nothing (map : QueuedMap Key Value) : Performs options map [] map := by
  refine ⟨(List.append_nil _).symm, [], live map.log, .rfl, (List.append_nil _).symm, ?_⟩
  rw [List.map_nil, List.append_nil]

theorem get_spec (h : map.Sound options) (now : ℤ) (key : Key) :
    (map.get now key).2.Sound options ∧
      Performs options map (occurrences options (live map.log) map.created (.get now key))
        (map.get now key).2 := by
  have hfilter : occurrences options (live map.log) map.created (.get now key) =
      (((live map.log).filter fun entry ↦ entry.key = key).filter (isExpired options now)).map
        fun entry ↦ .removed entry.key := by
    rw [List.filter_filter, occurrences]
    congr 1
    exact List.filter_congr fun entry _ ↦ Bool.and_comm _ _
  rw [hfilter]
  by_cases habsent : ∀ entry ∈ live map.log, entry.key ≠ key
  · have hnone : ((live map.log).filter fun entry ↦ entry.key = key) = [] :=
      List.filter_eq_nil_iff.mpr fun entry hmem ↦ by simpa using habsent entry hmem
    rw [get_of_absent h now habsent, hnone]
    exact ⟨h, performs_nothing map⟩
  · simp only [not_forall, not_not] at habsent
    obtain ⟨entry, hmem, rfl⟩ := habsent
    rw [get_of_mem h now hmem, h.filter_key_eq hmem]
    by_cases hexpired : isExpired options now entry = true
    · rw [if_pos hexpired, List.filter_cons_of_pos hexpired]
      exact ⟨h.delete entry.key,
        (h.removes_delete entry.key).loses.performs (log_delete map entry.key) rfl⟩
    · rw [if_neg hexpired, List.filter_cons_of_neg hexpired]
      exact ⟨h, performs_nothing map⟩

/-- What `values` returns, and what it does. -/
theorem values_spec (h : map.Sound options) (times : ℕ → ℤ) :
    (map.values times).1 =
      ((live map.log).zipIdx.filter fun read ↦ !isExpired options (times read.2) read.1).map
        (fun read ↦ read.1.value) ∧
    (map.values times).2.Sound options ∧
      Performs options map (occurrences options (live map.log) map.created (.values times))
        (map.values times).2 := by
  have hreads : (map.items.keys.zipIdx.map fun read ↦ (read.1, times read.2)) =
      ((live map.log).zipIdx.map fun read ↦ (read.1, times read.2)).map
        fun read ↦ (read.1.key, read.2) := by
    rw [h.keys_eq, List.zipIdx_map, List.map_map, List.map_map]
    rfl
  have hfst : ((live map.log).zipIdx.map fun read ↦ (read.1, times read.2)).map Prod.fst =
      live map.log := by
    rw [List.map_map]
    exact List.zipIdx_map_fst 0 _
  have hmem : ∀ read ∈ (live map.log).zipIdx.map fun read ↦ (read.1, times read.2),
      read.1 ∈ live map.log :=
    fun read hread ↦ hfst ▸ List.mem_map_of_mem hread
  have hnodup := h.nodup_keys
  rw [← hfst, List.map_map] at hnodup
  obtain ⟨after, left, hgets, hleft, hafter, hloses, hlog⟩ := getAll_spec h hmem hnodup
  rw [values, hreads, hgets]
  refine ⟨?_, hafter, ?_⟩
  · rw [List.filter_map, List.map_map]
    rfl
  · refine hloses.performs ?_ ?_
    · rw [hlog, hleft, List.filter_map, List.map_map, List.map_map]
      rfl
    · rw [occurrences, List.flatMap_map]
      exact List.flatMap_eq_nil_iff.mpr fun _ _ ↦ rfl

/-- Every call on a sound map succeeds, and does what is to happen. -/
theorem perform_spec (h : map.Sound options) (event : Event Key Value) :
    ∃ after, map.perform options event = .ok after ∧ after.Sound options ∧
      Performs options map (occurrences options (live map.log) map.created event) after := by
  cases event with
  | set now key value => exact set_spec h now key value
  | delete key =>
    exact ⟨_, rfl, h.delete key, (h.removes_delete key).loses.performs (log_delete map key) rfl⟩
  | get now key => exact ⟨_, rfl, get_spec h now key⟩
  | values times => exact ⟨_, rfl, (values_spec h times).2⟩

/-- An entry is live when it was stored, and nothing has happened to its key since. -/
theorem mem_live_iff {log : List (Occurrence Key Value)} {entry : Stored Key Value} :
    entry ∈ live log ↔ ∃ before later, log = before ++ .stored entry :: later ∧
      ∀ other ∈ later, other.key ≠ entry.key := by
  induction log with
  | nil => simp [live]
  | cons occurrence log ih =>
    rw [live, List.mem_append, ih, List.mem_filter, decide_eq_true_eq]
    constructor
    · rintro (⟨hstored, hlater⟩ | ⟨before, later, rfl, hlater⟩)
      · cases occurrence with
        | stored other =>
          obtain rfl := List.mem_singleton.mp hstored
          exact ⟨[], log, rfl, hlater⟩
        | removed key => cases hstored
        | evicted key => cases hstored
      · exact ⟨occurrence :: before, later, rfl, hlater⟩
    · rintro ⟨before, later, hlog, hlater⟩
      cases before with
      | nil =>
        obtain ⟨rfl, rfl⟩ := List.cons.inj hlog
        exact .inl ⟨List.mem_singleton_self entry, hlater⟩
      | cons first before => exact .inr ⟨before, later, (List.cons.inj hlog).2, hlater⟩

/-- A map is a bounded queue with expiry: the items and the drop queue have the same keys, in the
order in which they were last set; there are never too many; a read returns what was set last, as
long as nothing has happened to the key since and its time is not over; every call succeeds and does
what is to happen; and `onItemDropped` was called once for each entry that is not there any more. -/
structure Refines (options : FifoMapWithTtlOptions) (map : QueuedMap Key Value) : Prop where
  keys_eq : map.items.keys = (live map.log).map Stored.key
  dropQueue_eq : map.dropQueue.map Prod.snd = (live map.log).map Stored.key
  nodup_keys : ((live map.log).map Stored.key).Nodup
  size_le : map.items.entries.length ≤ options.maxSize
  get_eq_some_iff : ∀ now key value, (map.get now key).1 = some value ↔
    ∃ entry before later, map.log = before ++ .stored entry :: later ∧
      (∀ other ∈ later, other.key ≠ entry.key) ∧ entry.key = key ∧ entry.value = value ∧
      now < entry.setAt + options.ttlInMs
  performs : ∀ event, ∃ after, map.perform options event = .ok after ∧
    Performs options map (occurrences options (live map.log) map.created event) after
  count_eq : ∀ key, storedCount key map.log =
    map.dropped.count key + ((live map.log).map Stored.key).count key

theorem Sound.refines (h : map.Sound options) : Refines options map where
  keys_eq := h.keys_eq
  dropQueue_eq := by
    rw [h.dropQueue_eq, List.map_map]
    rfl
  nodup_keys := h.nodup_keys
  size_le := h.length_eq.trans_le h.length_le
  get_eq_some_iff := by
    intro now key value
    rw [QueuedMap.get_eq_some_iff h]
    constructor
    · rintro ⟨entry, hmem, hentry⟩
      obtain ⟨before, later, hlog, hlater⟩ := mem_live_iff.mp hmem
      exact ⟨entry, before, later, hlog, hlater, hentry⟩
    · rintro ⟨entry, before, later, hlog, hlater, hentry⟩
      exact ⟨entry, mem_live_iff.mpr ⟨before, later, hlog, hlater⟩, hentry⟩
  performs := by
    intro event
    obtain ⟨after, hafter, _, hperforms⟩ := perform_spec h event
    exact ⟨after, hafter, hperforms⟩
  count_eq := h.count_eq

theorem Sound.step {after : QueuedMap Key Value} {event : Event Key Value}
    (h : map.Sound options) (hstep : map.step options event = some after) :
    after.Sound options := by
  obtain ⟨performed, hperformed, hsound, _⟩ := perform_spec h event
  rw [QueuedMap.step, hperformed] at hstep
  exact Option.some.inj hstep ▸ hsound

/-- After any calls at any times, a map is a bounded queue with expiry. -/
theorem refines_of_reachable (options : FifoMapWithTtlOptions) {map : QueuedMap Key Value}
    (hreach : Transition.Reachable (QueuedMap.step options) (fun _ _ ↦ True) (· = .create) map) :
    Refines options map := by
  have hsound : map.Sound options := by
    refine hreach.invariant ?_ (fun _ _ _ _ hbefore _ hstep ↦ hbefore.step hstep)
    rintro map rfl
    exact sound_create
  exact hsound.refines

/-- Two entries in a map of one: the first is dropped for the second, which is then replaced and
expires. -/
def exampleEvents : List (Event ℕ String) :=
  [.set 0 1 "a", .set 5 2 "b", .set 6 2 "c", .get 50 2, .values fun _ ↦ 106]

theorem refines_exampleEvents : ∃ map : QueuedMap ℕ String,
    map.dropped = [1, 2, 2] ∧ map.items.keys = [] ∧ Refines ⟨100, 1⟩ map := by
  have hreach : Transition.Reachable (QueuedMap.step ⟨100, 1⟩) (fun _ _ ↦ True) (· = .create)
      (_ : QueuedMap ℕ String) :=
    .of_run exampleEvents (fun _ _ _ ↦ trivial) (.start rfl) rfl
  exact ⟨_, rfl, rfl, refines_of_reachable ⟨100, 1⟩ hreach⟩

end QueuedMap

end PomboStorageNode.TrackerlessNetwork.History
