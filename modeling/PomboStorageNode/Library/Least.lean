import Mathlib.Data.List.Sort
import Mathlib.Order.Basic

/-!
# The least items of a pool

`Least key limit pool items` says that `items` are `limit` items of a pool with the least keys, in
ascending order, or all of them when there are not so many. A pool whose items have different keys
determines its least items (`Least.unique`). `insertLeast` inserts an item into a list of limited
length, `Least.insert` says that this keeps up with a pool that gets a new item, and `Least.filter`
when taking items out of the list keeps up with a pool that loses them: when the list is the whole
pool, or when they are not among the least ones. The least items of a part of a list are those of
the whole list exactly when enough of the part is at or below everything outside it
(`Least.iff_of_subset`).
-/

set_option autoImplicit false

namespace PomboStorageNode.Library

variable {Item Key : Type*} [LinearOrder Key]

/-- A list has the least items of a pool, at most `limit` of them, in ascending order. -/
structure Least (key : Item → Key) (limit : ℕ) (pool : Item → Prop) (items : List Item) :
    Prop where
  nodup : items.Nodup
  sorted : items.Pairwise fun first second ↦ key first ≤ key second
  pool_of_mem : ∀ item ∈ items, pool item
  length_le : items.length ≤ limit
  left_out : ∀ other, pool other → other ∉ items →
    items.length = limit ∧ ∀ item ∈ items, key item ≤ key other

/-- Inserting an item into an ascending list of limited length: in front of the first item that is
not less, in place of the last item when the list is full, and not at all when the list is full and
the last item is not greater. -/
def insertLeast (key : Item → Key) (limit : ℕ) (item : Item) (items : List Item) : List Item :=
  if items.length < limit then items.orderedInsert (key · ≤ key ·) item
  else match items.getLast? with
    | some last =>
      if key item < key last then items.dropLast.orderedInsert (key · ≤ key ·) item else items
    | none => items

/-- Inserting commutes with a map under which the key is computed. -/
theorem map_insertLeast {Image : Type*} (key : Image → Key) (change : Item → Image) (limit : ℕ)
    (item : Item) (items : List Item) :
    (insertLeast (fun item ↦ key (change item)) limit item items).map change =
      insertLeast key limit (change item) (items.map change) := by
  have hinsert (kept : List Item) :
      (kept.orderedInsert (fun first second ↦ key (change first) ≤ key (change second)) item).map
          change = (kept.map change).orderedInsert (key · ≤ key ·) (change item) :=
    List.map_orderedInsert _ _ change kept item (fun _ _ ↦ Iff.rfl) fun _ _ ↦ Iff.rfl
  unfold insertLeast
  rw [List.length_map, List.getLast?_map]
  split_ifs
  · exact hinsert items
  · cases items.getLast? with
    | none => rfl
    | some last =>
      show List.map change (if _ then _ else _) = if _ then _ else _
      split_ifs
      · rw [hinsert, List.map_dropLast]
      · rfl

namespace Least

variable {key : Item → Key} {limit : ℕ} {pool : Item → Prop} {items : List Item}

/-- A pool without items. -/
theorem nil (hpool : ∀ item, ¬ pool item) : Least key limit pool [] :=
  ⟨List.nodup_nil, List.Pairwise.nil, nofun, Nat.zero_le _,
    fun other hother _ ↦ absurd hother (hpool other)⟩

/-- The least items depend on the items of the pool only. -/
theorem congr {other : Item → Prop} (hiff : ∀ item, pool item ↔ other item)
    (hleast : Least key limit pool items) : Least key limit other items :=
  ⟨hleast.nodup, hleast.sorted, fun item hmem ↦ (hiff item).mp (hleast.pool_of_mem item hmem),
    hleast.length_le, fun item hitem ↦ hleast.left_out item ((hiff item).mpr hitem)⟩

/-! ### Uniqueness -/

/-- The least items are in every list of the least items, if the items of the pool have different
keys. -/
theorem subset {others : List Item}
    (hkey : ∀ first second, pool first → pool second → key first = key second → first = second)
    (hleast : Least key limit pool items) (hother : Least key limit pool others) :
    items ⊆ others := by
  intro item hmem
  by_contra hnot
  have hpool := hleast.pool_of_mem item hmem
  obtain ⟨hfull, hle⟩ := hother.left_out item hpool hnot
  -- the other list is full, so an item of it has to be missing in turn
  obtain ⟨missing, hmissing, hout⟩ : ∃ missing ∈ others, missing ∉ items := by
    by_contra hall
    push Not at hall
    have hlength : items.length ≤ others.length := hfull ▸ hleast.length_le
    have hperm := (List.subperm_of_subset hother.nodup hall).perm_of_length_le hlength
    exact hnot (hperm.mem_iff.mpr hmem)
  have hpool' := hother.pool_of_mem missing hmissing
  have hback := (hleast.left_out missing hpool' hout).2 item hmem
  exact hout (hkey missing item hpool' hpool (le_antisymm (hle missing hmissing) hback) ▸ hmem)

/-- A pool whose items have different keys determines its least items. -/
theorem unique {others : List Item}
    (hkey : ∀ first second, pool first → pool second → key first = key second → first = second)
    (hleast : Least key limit pool items) (hother : Least key limit pool others) :
    items = others := by
  have hperm : items.Perm others := (List.perm_ext_iff_of_nodup hleast.nodup hother.nodup).mpr
    fun item ↦ ⟨fun hmem ↦ hleast.subset hkey hother hmem, fun hmem ↦
      hother.subset hkey hleast hmem⟩
  refine hperm.eq_of_pairwise (fun first second hfirst hsecond hle hge ↦ ?_) hleast.sorted
    hother.sorted
  exact hkey first second (hleast.pool_of_mem first hfirst) (hother.pool_of_mem second hsecond)
    (le_antisymm hle hge)

/-! ### Changes of the pool -/

/-- Inserting into a list that is not full. -/
theorem insert_of_length_lt {item : Item} (hleast : Least key limit pool items)
    (hnew : ¬ pool item) (hlength : items.length < limit) :
    Least key limit (fun other ↦ other = item ∨ pool other)
      (items.orderedInsert (key · ≤ key ·) item) := by
  refine ⟨?_, hleast.sorted.orderedInsert item items, fun other hmem ↦ ?_, ?_,
    fun other hother hnot ↦ ?_⟩
  · rw [(List.perm_orderedInsert _ item items).nodup_iff, List.nodup_cons]
    exact ⟨fun hmem ↦ hnew (hleast.pool_of_mem item hmem), hleast.nodup⟩
  · exact ((List.mem_orderedInsert _).mp hmem).imp_right (hleast.pool_of_mem other)
  · rw [List.orderedInsert_length]
    exact hlength
  · rw [List.mem_orderedInsert, not_or] at hnot
    have hpool := hother.resolve_left hnot.1
    exact absurd (hleast.left_out other hpool hnot.2).1 hlength.ne

/-- Inserting an item in place of the last one, which is greater. -/
theorem insert_of_lt_last {before : List Item} {item last : Item}
    (hleast : Least key limit pool (before ++ [last])) (hnew : ¬ pool item)
    (hfull : (before ++ [last]).length = limit) (hlt : key item < key last) :
    Least key limit (fun other ↦ other = item ∨ pool other)
      (before.orderedInsert (key · ≤ key ·) item) := by
  obtain ⟨hbefore, -, hlast⟩ := List.pairwise_append.mp hleast.sorted
  have hlast (other : Item) (hmem : other ∈ before) : key other ≤ key last :=
    hlast other hmem last List.mem_cons_self
  have hpool (other : Item) (hmem : other ∈ before) : pool other :=
    hleast.pool_of_mem other (List.mem_append_left _ hmem)
  have hlength : (before.orderedInsert (key · ≤ key ·) item).length = limit := by
    rw [List.orderedInsert_length, ← hfull, List.length_append, List.length_singleton]
  refine ⟨?_, hbefore.orderedInsert item before, fun other hmem ↦ ?_, hlength.le,
    fun other hother hnot ↦ ⟨hlength, fun kept hkept ↦ ?_⟩⟩
  · rw [(List.perm_orderedInsert _ item before).nodup_iff, List.nodup_cons]
    exact ⟨fun hmem ↦ hnew (hpool item hmem), (List.nodup_append.mp hleast.nodup).1⟩
  · exact ((List.mem_orderedInsert _).mp hmem).imp_right (hpool other)
  · rw [List.mem_orderedInsert, not_or] at hnot
    have hother := hother.resolve_left hnot.1
    -- everything that is left out is the former last item, or was behind it
    have hle : key last ≤ key other := by
      by_cases hsame : other = last
      · exact hsame ▸ le_rfl
      · have hout : other ∉ before ++ [last] := by simp [hnot.2, hsame]
        exact (hleast.left_out other hother hout).2 last (by simp)
    rcases (List.mem_orderedInsert _).mp hkept with rfl | hmem
    · exact hlt.le.trans hle
    · exact (hlast kept hmem).trans hle

/-- Inserting keeps up with a pool that gets a new item. -/
theorem insert {item : Item} (hleast : Least key limit pool items) (hnew : ¬ pool item) :
    Least key limit (fun other ↦ other = item ∨ pool other) (insertLeast key limit item items) := by
  unfold insertLeast
  split_ifs with hlength
  · exact hleast.insert_of_length_lt hnew hlength
  have hfull : items.length = limit := le_antisymm hleast.length_le (not_lt.mp hlength)
  cases hlast : items.getLast? with
  | none =>
    obtain rfl := List.getLast?_eq_none_iff.mp hlast
    exact ⟨List.nodup_nil, List.Pairwise.nil, nofun, Nat.zero_le _, fun _ _ _ ↦ ⟨hfull, nofun⟩⟩
  | some last =>
    obtain ⟨before, rfl⟩ := List.getLast?_eq_some_iff.mp hlast
    dsimp only
    rw [List.dropLast_concat]
    split_ifs with hlt
    · exact hleast.insert_of_lt_last hnew hfull hlt
    · refine ⟨hleast.nodup, hleast.sorted, fun other hother ↦
        Or.inr (hleast.pool_of_mem other hother), hleast.length_le, fun other hother hnot ↦ ?_⟩
      rcases hother with rfl | hpool
      · refine ⟨hfull, fun kept hkept ↦ ?_⟩
        rcases List.mem_append.mp hkept with hbefore | hsame
        · have hle := (List.pairwise_append.mp hleast.sorted).2.2 kept hbefore last
            List.mem_cons_self
          exact hle.trans (not_lt.mp hlt)
        · exact List.mem_singleton.mp hsame ▸ not_lt.mp hlt
      · exact hleast.left_out other hpool hnot

/-- An item that was left out before is left out again. -/
theorem insertLeast_of_pool {item : Item} (hleast : Least key limit pool items)
    (hpool : pool item) (hnot : item ∉ items) : insertLeast key limit item items = items := by
  obtain ⟨hfull, hle⟩ := hleast.left_out item hpool hnot
  rw [insertLeast, if_neg (by omega)]
  cases hlast : items.getLast? with
  | none => rfl
  | some last => exact if_neg (not_lt.mpr (hle last (List.mem_of_getLast? hlast)))

/-- Removing items keeps up with a pool that loses them, when none of them is among the least ones,
or when these are the whole pool. -/
theorem filter {keep : Item → Bool} (hleast : Least key limit pool items)
    (hout : (∀ item ∈ items, keep item = true) ∨ ∀ other, pool other → other ∈ items) :
    Least key limit (fun other ↦ pool other ∧ keep other = true) (items.filter keep) := by
  refine ⟨hleast.nodup.filter _, hleast.sorted.filter _, fun item hmem ↦ ?_,
    (List.length_filter_le _ _).trans hleast.length_le, fun other hother hnot ↦ ?_⟩
  · obtain ⟨hitems, hkeep⟩ := List.mem_filter.mp hmem
    exact ⟨hleast.pool_of_mem item hitems, hkeep⟩
  · have hnot : other ∉ items := fun hmem ↦ hnot (List.mem_filter.mpr ⟨hmem, hother.2⟩)
    rcases hout with hkept | hall
    · rw [List.filter_eq_self.mpr hkept]
      exact hleast.left_out other hother.1 hnot
    · exact absurd (hall other hother.1) hnot

/-! ### The least items of a list -/

variable {elements : List Item}

/-- Sorting a list and cutting it. -/
theorem take {sorted : List Item} (hperm : sorted.Perm elements) (hnodup : elements.Nodup)
    (hsorted : sorted.Pairwise fun first second ↦ key first ≤ key second) :
    Least key limit (· ∈ elements) (sorted.take limit) := by
  refine ⟨(hperm.nodup_iff.mpr hnodup).sublist (List.take_sublist _ _),
    hsorted.sublist (List.take_sublist _ _),
    fun item hmem ↦ hperm.mem_iff.mp (List.mem_of_mem_take hmem), List.length_take_le _ _,
    fun other hother hnot ↦ ?_⟩
  rw [← List.take_append_drop limit sorted] at hsorted
  have hdropped : other ∈ sorted.drop limit := by
    have hmem := hperm.mem_iff.mpr hother
    rw [← List.take_append_drop limit sorted, List.mem_append] at hmem
    exact hmem.resolve_left hnot
  have hlength : limit ≤ sorted.length := by
    by_contra hshort
    rw [List.drop_eq_nil_of_le (not_le.mp hshort).le] at hdropped
    cases hdropped
  exact ⟨List.length_take_of_le hlength, fun item hitem ↦
    (List.pairwise_append.mp hsorted).2.2 item hitem other hdropped⟩

/-- There are as many of them as the limit and the list allow. -/
theorem length_eq (hnodup : elements.Nodup) (hleast : Least key limit (· ∈ elements) items) :
    items.length = min limit elements.length := by
  have hle := (List.subperm_of_subset hleast.nodup hleast.pool_of_mem).length_le
  by_cases hout : ∃ other ∈ elements, other ∉ items
  · obtain ⟨other, hother, hnot⟩ := hout
    have hfull := (hleast.left_out other hother hnot).1
    omega
  · push Not at hout
    have hge := (List.subperm_of_subset hnodup hout).length_le
    have hlimit := hleast.length_le
    omega

/-- The least items of a part of a list are the least of the list if and only if, for everything
outside the part, at least `limit` items of the part are not greater. -/
theorem iff_of_subset {part : List Item} (hsubset : part ⊆ elements) (hnodup : part.Nodup)
    (hleast : Least key limit (· ∈ part) items) :
    Least key limit (· ∈ elements) items ↔ ∀ other ∈ elements, other ∉ part →
      limit ≤ part.countP fun item ↦ key item ≤ key other := by
  have hsub : items.Subperm part := List.subperm_of_subset hleast.nodup hleast.pool_of_mem
  constructor
  · intro hwhole other hother hout
    obtain ⟨hfull, hle⟩ := hwhole.left_out other hother fun hmem ↦
      hout (hleast.pool_of_mem other hmem)
    have hcount : (items.countP fun item ↦ key item ≤ key other) = items.length :=
      List.countP_eq_length.mpr fun item hitem ↦ decide_eq_true (hle item hitem)
    rw [← hfull, ← hcount]
    exact hsub.countP_le _
  · intro henough
    refine ⟨hleast.nodup, hleast.sorted, fun item hmem ↦ hsubset (hleast.pool_of_mem item hmem),
      hleast.length_le, fun other hother hnot ↦ ?_⟩
    by_cases hpart : other ∈ part
    · exact hleast.left_out other hpart hnot
    have hcount := henough other hother hpart
    rw [List.countP_eq_length_filter] at hcount
    have hfull : items.length = limit := by
      have hlength := hleast.length_eq hnodup
      have hle := List.length_filter_le (fun item ↦ decide (key item ≤ key other)) part
      omega
    refine ⟨hfull, fun item hitem ↦ ?_⟩
    by_contra hgreater
    -- then all of the part that is not greater than `other` is among the items, beside `item`
    have hcons : (item :: part.filter fun item ↦ key item ≤ key other).Subperm items := by
      refine List.subperm_of_subset (List.nodup_cons.mpr ⟨?_, hnodup.filter _⟩) ?_
      · simp [hgreater]
      · refine List.cons_subset.mpr ⟨hitem, fun lower hlower ↦ ?_⟩
        obtain ⟨hmem, hle⟩ := List.mem_filter.mp hlower
        by_contra hout
        have hitemLe := (hleast.left_out lower hmem hout).2 item hitem
        exact hgreater (hitemLe.trans (of_decide_eq_true hle))
    have hlength := hcons.length_le
    rw [List.length_cons] at hlength
    omega

end Least

end PomboStorageNode.Library
