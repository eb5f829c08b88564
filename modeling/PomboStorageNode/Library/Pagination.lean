import Mathlib.Data.List.Basic
import Mathlib.Order.Lattice

/-!
# Reading a sorted list page by page

`collectPages` asks for the page behind a key, and goes on behind the key of the last item while the
pages are full. A source that answers with the first items behind the key (`Pages`) is read
completely, when the keys are those of the items (`Pages.collectPages_eq`). A reader that goes on
behind a key above all items stops with the first page (`Pages.collectPages_of_above`). More
requests than needed change nothing (`collectPages_mono`), so that the items are unique.
-/

set_option autoImplicit false

namespace PomboStorageNode.Library

variable {Item Answer Key : Type*}

/-- The items of the pages behind a key, when they can be had with a number of requests. The key
behind which to go on is read from the last item of a full page. -/
def collectPages (ask : Key → List Answer) (nextKey : Answer → Key) (pageSize : ℕ) :
    ℕ → Key → Option (List Answer)
  | 0, _ => none
  | requests + 1, lastKey =>
    let page := ask lastKey
    if page.length = pageSize then
      page.getLast?.bind fun last ↦
        (collectPages ask nextKey pageSize requests (nextKey last)).map (page ++ ·)
    else some page

variable {ask : Key → List Answer} {nextKey : Answer → Key} {pageSize : ℕ}

theorem collectPages_mono {requests more : ℕ} (hmore : requests ≤ more) {lastKey : Key}
    {collected : List Answer}
    (hcollected : collectPages ask nextKey pageSize requests lastKey = some collected) :
    collectPages ask nextKey pageSize more lastKey = some collected := by
  induction requests generalizing more lastKey collected with
  | zero => cases hcollected
  | succ requests ih =>
    obtain ⟨more, rfl⟩ : ∃ next, more = next + 1 := ⟨more - 1, by omega⟩
    rw [collectPages] at hcollected ⊢
    split_ifs at hcollected ⊢ with hfull
    · obtain ⟨last, hlast, hpages⟩ := Option.bind_eq_some_iff.mp hcollected
      obtain ⟨rest, hrest, rfl⟩ := Option.map_eq_some_iff.mp hpages
      rw [hlast, Option.bind_some, ih (Nat.le_of_succ_le_succ hmore) hrest]
      rfl
    · exact hcollected

/-- Two numbers of requests with which the items can be had give the same items. -/
theorem collectPages_unique {first second : ℕ} {lastKey : Key} {collected other : List Answer}
    (hfirst : collectPages ask nextKey pageSize first lastKey = some collected)
    (hsecond : collectPages ask nextKey pageSize second lastKey = some other) :
    collected = other := by
  have hboth := collectPages_mono (Nat.le_add_right first second) hfirst
  rw [collectPages_mono (Nat.le_add_left second first) hsecond] at hboth
  exact (Option.some.inj hboth).symm

variable [LinearOrder Key]

/-- A source of items in the order of their keys: an answer has the first ones behind a key. -/
structure Pages (key : Item → Key) (items : List Item) (answer : Item → Answer) (pageSize : ℕ)
    (ask : Key → List Answer) : Prop where
  sorted : items.Pairwise fun first second ↦ key first < key second
  ask_eq : ∀ lastKey, ask lastKey = ((items.filter (lastKey < key ·)).take pageSize).map answer

namespace Pages

variable {key : Item → Key} {items : List Item} {answer : Item → Answer}

/-- The items behind a key of a list that is cut there. -/
theorem filter_append_eq {before rest : List Item} {lastKey : Key}
    (hbefore : ∀ item ∈ before, key item ≤ lastKey) (hrest : ∀ item ∈ rest, lastKey < key item) :
    (before ++ rest).filter (lastKey < key ·) = rest := by
  rw [List.filter_append, List.filter_eq_nil_iff.mpr, List.nil_append, List.filter_eq_self.mpr]
  · exact fun item hmem ↦ decide_eq_true (hrest item hmem)
  · intro item hmem
    rw [decide_eq_true_eq]
    exact not_lt.mpr (hbefore item hmem)

/-- The answer behind a key at which the list is cut. -/
theorem ask_append (h : Pages key items answer pageSize ask) {before rest : List Item}
    {lastKey : Key} (hsplit : items = before ++ rest)
    (hbefore : ∀ item ∈ before, key item ≤ lastKey) (hrest : ∀ item ∈ rest, lastKey < key item) :
    ask lastKey = (rest.take pageSize).map answer := by
  rw [h.ask_eq, hsplit, filter_append_eq hbefore hrest]

/-- A reader that goes on behind the last item gets everything. The induction is on the number of
requests: each full page takes an item at least. -/
theorem collectPages_eq (h : Pages key items answer pageSize ask) (hpos : 0 < pageSize)
    (hnext : ∀ item ∈ items, nextKey (answer item) = key item) {requests : ℕ}
    {before rest : List Item} {lastKey : Key} (hsplit : items = before ++ rest)
    (hbefore : ∀ item ∈ before, key item ≤ lastKey) (hrest : ∀ item ∈ rest, lastKey < key item)
    (hrequests : rest.length < requests) :
    collectPages ask nextKey pageSize requests lastKey = some (rest.map answer) := by
  induction requests generalizing before rest lastKey with
  | zero => omega
  | succ requests ih =>
    rw [collectPages, h.ask_append hsplit hbefore hrest]
    split_ifs with hfull
    · rw [List.length_map] at hfull
      have hne : rest.take pageSize ≠ [] := List.length_pos_iff.mp (by omega)
      obtain ⟨page, last, hpage⟩ := (List.eq_nil_or_concat (rest.take pageSize)).resolve_left hne
      have hcut : rest = page ++ [last] ++ rest.drop pageSize := by
        rw [← List.concat_eq_append, ← hpage, List.take_append_drop]
      have hitems : items = (before ++ (page ++ [last])) ++ rest.drop pageSize := by
        rw [hsplit, List.append_assoc, ← hcut]
      have hsorted := h.sorted
      rw [hitems, List.pairwise_append, ← List.append_assoc, List.pairwise_append] at hsorted
      have hmem : last ∈ items := by
        rw [hitems]
        simp
      have hrecursive := @ih (before ++ (page ++ [last])) (rest.drop pageSize) (key last) hitems
        ?_ ?_ ?_
      · rw [List.getLast?_map, hpage, List.concat_eq_append, List.getLast?_concat, Option.map_some,
          Option.bind_some, hnext last hmem, hrecursive, Option.map_some, ← List.map_append,
          ← hcut]
      · intro item hitem
        rw [← List.append_assoc] at hitem
        rcases List.mem_append.mp hitem with hprior | hlast
        · exact (hsorted.1.2.2 item hprior last (List.mem_singleton_self last)).le
        · rw [List.mem_singleton.mp hlast]
      · intro item hitem
        refine hsorted.2.2 last ?_ item hitem
        exact List.mem_append_right _ (List.mem_singleton_self last)
      · rw [List.length_drop]
        rw [List.length_take] at hfull
        omega
    · rw [List.length_map, List.length_take] at hfull
      rw [List.take_of_length_le (by omega)]

/-- A reader that goes on behind a key above all items gets the first page. -/
theorem collectPages_of_above (h : Pages key items answer pageSize ask) (hpos : 0 < pageSize)
    (habove : ∀ item ∈ items, ∀ other ∈ items, key other ≤ nextKey (answer item)) {lastKey : Key}
    (hrest : ∀ item ∈ items, lastKey < key item) :
    collectPages ask nextKey pageSize 2 lastKey = some ((items.take pageSize).map answer) := by
  have hfirst := h.ask_append (List.nil_append items).symm (fun _ hmem ↦ nomatch hmem) hrest
  rw [collectPages, hfirst]
  split_ifs with hfull
  · rw [List.length_map] at hfull
    have hne : items.take pageSize ≠ [] := List.length_pos_iff.mp (by omega)
    have hmem := List.mem_of_mem_take (List.getLast_mem hne)
    have hsecond := h.ask_append (List.append_nil items).symm (habove _ hmem)
      (fun _ hmem ↦ nomatch hmem)
    rw [List.getLast?_map, List.getLast?_eq_some_getLast hne, Option.map_some, Option.bind_some,
      collectPages, hsecond, List.take_nil, List.map_nil, List.length_nil,
      if_neg (Nat.ne_of_lt hpos), Option.map_some, List.append_nil]
  · rfl

end Pages

end PomboStorageNode.Library
