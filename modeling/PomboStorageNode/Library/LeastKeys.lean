import Mathlib.Data.Finset.Card
import Mathlib.Data.Finset.Max
import PomboStorageNode.Library.Least

/-!
# The least items, one for each key

A sorted map keeps one item for each key. Where its keys are the least ones of some items up to a
bound, its items are the least ones of all when there are enough items within the bound, and when
items with equal keys are not among the least: `Least.of_keys_iff`, the bound being the key of one
of the items. `Least.of_least` is the step with which the least keys keep up: the least of an item
and the least ones.
-/

set_option autoImplicit false

namespace PomboStorageNode.Library.Least

variable {Item Key : Type*} [LinearOrder Key] {key : Item → Key} {limit : ℕ} {pool : Item → Prop}
  {items : List Item}

/-- The least ones of a new item and the least ones. -/
theorem of_least {item : Item} {result : List Item} (hitems : Least key limit pool items)
    (hresult : Least key limit (fun other ↦ other = item ∨ other ∈ items) result) :
    Least key limit (fun other ↦ other = item ∨ pool other) result := by
  refine ⟨hresult.nodup, hresult.sorted, fun other hmem ↦ ?_, hresult.length_le,
    fun other hother hnot ↦ ?_⟩
  · exact (hresult.pool_of_mem other hmem).imp_right (hitems.pool_of_mem other)
  by_cases hin : other = item ∨ other ∈ items
  · exact hresult.left_out other hin hnot
  rw [not_or] at hin
  obtain ⟨hfull, hle⟩ := hitems.left_out other (hother.resolve_left hin.1) hin.2
  by_cases hall : items ⊆ result
  · -- then the new item is not in the result, which has no room for it
    have hlength := hitems.nodup.length_le_of_subset hall
    have hresultLe := hresult.length_le
    refine ⟨by omega, fun kept hkept ↦ ?_⟩
    rcases hresult.pool_of_mem kept hkept with rfl | hmem
    · by_cases hold : kept ∈ items
      · exact hle kept hold
      · have hcons := (List.nodup_cons.mpr ⟨hold, hitems.nodup⟩).length_le_of_subset
          (List.cons_subset.mpr ⟨hkept, hall⟩)
        rw [List.length_cons] at hcons
        omega
    · exact hle kept hmem
  · obtain ⟨missing, hmissing, hout⟩ : ∃ missing ∈ items, missing ∉ result := by
      by_contra hnone
      push Not at hnone
      exact hall hnone
    obtain ⟨hlength, hbefore⟩ := hresult.left_out missing (Or.inr hmissing) hout
    exact ⟨hlength, fun kept hkept ↦ (hbefore kept hkept).trans (hle missing hmissing)⟩

/-- If enough items of the pool are within a bound, all of the least ones are. -/
theorem le_of_enough {bound : Key} {enough : Finset Item} (hleast : Least key limit pool items)
    (henough : ∀ item ∈ enough, pool item ∧ key item ≤ bound) (hcard : limit ≤ enough.card) :
    items.length = limit ∧ ∀ item ∈ items, key item ≤ bound := by
  constructor
  · by_cases hall : ∀ item ∈ enough, item ∈ items
    · have hlength := enough.nodup_toList.length_le_of_subset fun item hmem ↦
        hall item (Finset.mem_toList.mp hmem)
      rw [Finset.length_toList] at hlength
      exact Nat.le_antisymm hleast.length_le (Nat.le_trans hcard hlength)
    · push Not at hall
      obtain ⟨item, hmem, hnot⟩ := hall
      exact (hleast.left_out item (henough item hmem).1 hnot).1
  · intro item hitem
    by_contra hgreater
    -- then all the items within the bound are among the least ones, and there are too many of these
    have hall (other : Item) (hother : other ∈ enough) : other ∈ items := by
      by_contra hnot
      obtain ⟨hpool, hle⟩ := henough other hother
      exact hgreater (((hleast.left_out other hpool hnot).2 item hitem).trans hle)
    have hnodup : (item :: enough.toList).Nodup := List.nodup_cons.mpr
      ⟨fun hmem ↦ hgreater (henough item (Finset.mem_toList.mp hmem)).2, enough.nodup_toList⟩
    have hlength := hnodup.length_le_of_subset (List.cons_subset.mpr
      ⟨hitem, fun other hmem ↦ hall other (Finset.mem_toList.mp hmem)⟩)
    rw [List.length_cons, Finset.length_toList] at hlength
    have hle := hleast.length_le
    omega

/-- The least items are those that fewer than `limit` items precede. Assumes: different items have
different keys. -/
theorem mem_iff_card_lt {elements : Finset Item} {item : Item}
    (hkey : ∀ first ∈ elements, ∀ second ∈ elements, key first = key second → first = second)
    (hleast : Least key limit (· ∈ elements) items) :
    item ∈ items ↔ item ∈ elements ∧ {other ∈ elements | key other < key item}.card < limit := by
  classical
  have hcard : items.toFinset.card = items.length := List.toFinset_card_of_nodup hleast.nodup
  constructor
  · intro hitem
    refine ⟨hleast.pool_of_mem item hitem, ?_⟩
    have hsubset : {other ∈ elements | key other < key item} ⊂ items.toFinset := by
      refine (Finset.ssubset_iff_of_subset fun other hother ↦ ?_).mpr
        ⟨item, List.mem_toFinset.mpr hitem, fun hmem ↦ lt_irrefl _ (Finset.mem_filter.mp hmem).2⟩
      obtain ⟨hmem, hlt⟩ := Finset.mem_filter.mp hother
      rw [List.mem_toFinset]
      by_contra hnot
      exact ((hleast.left_out other hmem hnot).2 item hitem).not_gt hlt
    exact (Finset.card_lt_card hsubset).trans_le (hcard ▸ hleast.length_le)
  · rintro ⟨hitem, hbefore⟩
    by_contra hnot
    obtain ⟨hfull, hle⟩ := hleast.left_out item hitem hnot
    have hsubset : items.toFinset ⊆ {other ∈ elements | key other < key item} := by
      intro other hother
      rw [List.mem_toFinset] at hother
      have hmem := hleast.pool_of_mem other hother
      refine Finset.mem_filter.mpr ⟨hmem, lt_of_le_of_ne (hle other hother) fun hsame ↦ hnot ?_⟩
      exact hkey other hmem item hitem hsame ▸ hother
    have hmany := Finset.card_le_card hsubset
    omega

/-! ### One item for each key -/

variable {elements : Finset Item}

/-- Where items with equal keys are far enough behind, enough items within a bound have enough keys
within it. -/
theorem exists_keys {bound : Key}
    (hties : ∀ first ∈ elements, ∀ second ∈ elements, first ≠ second → key first = key second →
      limit ≤ {item ∈ elements | key item < key first}.card + 1)
    (hcard : limit ≤ {item ∈ elements | key item ≤ bound}.card) :
    ∃ keys : Finset Key, limit ≤ keys.card ∧
      ∀ other ∈ keys, other ≤ bound ∧ ∃ item ∈ elements, key item = other := by
  classical
  let tied : Finset Item := {item ∈ elements | key item ≤ bound ∧
    ∃ other ∈ elements, item ≠ other ∧ key item = key other}
  rcases tied.eq_empty_or_nonempty with hnone | hsome
  · refine ⟨{item ∈ elements | key item ≤ bound}.image key, ?_, fun other hother ↦ ?_⟩
    · rw [Finset.card_image_of_injOn fun first hfirst second hsecond hsame ↦ ?_]
      · exact hcard
      rw [Finset.mem_coe, Finset.mem_filter] at hfirst hsecond
      by_contra hne
      have hmem : first ∈ tied := Finset.mem_filter.mpr
        ⟨hfirst.1, hfirst.2, second, hsecond.1, hne, hsame⟩
      rw [hnone] at hmem
      exact Finset.notMem_empty first hmem
    · obtain ⟨item, hitem, rfl⟩ := Finset.mem_image.mp hother
      obtain ⟨hmem, hle⟩ := Finset.mem_filter.mp hitem
      exact ⟨hle, item, hmem, rfl⟩
  · -- nothing before the first tie is tied
    obtain ⟨least, hleast, hmin⟩ := tied.exists_min_image key hsome
    obtain ⟨hmem, hle, other, hother, hne, hsame⟩ := Finset.mem_filter.mp hleast
    have hbefore := hties least hmem other hother hne hsame
    refine ⟨Insert.insert (key least) ({item ∈ elements | key item < key least}.image key), ?_,
      fun other hother ↦ ?_⟩
    · rw [Finset.card_insert_of_notMem fun hin ↦ ?_,
        Finset.card_image_of_injOn fun first hfirst second hsecond hequal ↦ ?_]
      · exact hbefore
      · rw [Finset.mem_coe, Finset.mem_filter] at hfirst hsecond
        by_contra hdistinct
        have htied : first ∈ tied := Finset.mem_filter.mpr
          ⟨hfirst.1, hfirst.2.le.trans hle, second, hsecond.1, hdistinct, hequal⟩
        exact (hmin first htied).not_gt hfirst.2
      · obtain ⟨item, hitem, hequal⟩ := Finset.mem_image.mp hin
        exact (Finset.mem_filter.mp hitem).2.ne hequal
    · rcases Finset.mem_insert.mp hother with rfl | himage
      · exact ⟨hle, least, hmem, rfl⟩
      · obtain ⟨item, hitem, rfl⟩ := Finset.mem_image.mp himage
        obtain ⟨hitem, hlt⟩ := Finset.mem_filter.mp hitem
        exact ⟨hlt.le.trans hle, item, hitem, rfl⟩

/-- Items whose keys are the least ones up to the key of the first of some elements are the least
elements if and only if enough elements are not beyond the first one, unless none is beyond it, and
enough of them are nearer than any two with the same key. -/
theorem of_keys_iff {first : Item} (hsubset : ∀ item ∈ items, item ∈ elements)
    (hkeys : Least id limit
      (fun other ↦ other ≤ key first ∧ ∃ item ∈ elements, key item = other) (items.map key)) :
    Least key limit (· ∈ elements) items ↔
      (∀ other ∈ elements, key first < key other →
        limit ≤ {item ∈ elements | key item ≤ key first}.card) ∧
      ∀ first ∈ elements, ∀ second ∈ elements, first ≠ second → key first = key second →
        limit ≤ {item ∈ elements | key item < key first}.card + 1 := by
  classical
  have hnodup : items.Nodup := hkeys.nodup.of_map key
  have hinjective {one two : Item} (hone : one ∈ items) (htwo : two ∈ items)
      (hsame : key one = key two) : one = two :=
    List.inj_on_of_nodup_map hkeys.nodup hone htwo hsame
  have hcard : items.toFinset.card = items.length := List.toFinset_card_of_nodup hnodup
  constructor
  · intro hleast
    refine ⟨fun other hother hbeyond ↦ ?_, fun one hone two htwo hne hsame ↦ ?_⟩
    · have hwithin (item : Item) (hitem : item ∈ items) : key item ≤ key first :=
        (hkeys.pool_of_mem _ (List.mem_map_of_mem hitem)).1
      have hfull := (hleast.left_out other hother fun hmem ↦ (hwithin other hmem).not_gt hbeyond).1
      rw [← hfull, ← hcard]
      refine Finset.card_le_card fun item hitem ↦ ?_
      rw [List.mem_toFinset] at hitem
      exact Finset.mem_filter.mpr ⟨hsubset item hitem, hwithin item hitem⟩
    · -- one of the two is left out, and at most one of the least items has their key
      obtain ⟨out, hout, hkey, hnot⟩ : ∃ out ∈ elements, key out = key one ∧ out ∉ items := by
        by_cases hmem : one ∈ items
        · exact ⟨two, htwo, hsame.symm, fun hin ↦ hne (hinjective hmem hin hsame)⟩
        · exact ⟨one, hone, rfl, hmem⟩
      obtain ⟨hfull, hle⟩ := hleast.left_out out hout hnot
      rw [← hfull, ← hcard]
      by_cases hequal : ∃ kept ∈ items, key kept = key one
      · obtain ⟨kept, hkept, hkeptKey⟩ := hequal
        have herase : items.toFinset.erase kept ⊆
            {item ∈ elements | key item < key one} := fun item hitem ↦ by
          obtain ⟨hother, hitem⟩ := Finset.mem_erase.mp hitem
          rw [List.mem_toFinset] at hitem
          refine Finset.mem_filter.mpr ⟨hsubset item hitem, ?_⟩
          refine lt_of_le_of_ne (hkey ▸ hle item hitem) fun hitemKey ↦ hother ?_
          exact hinjective hitem hkept (hitemKey.trans hkeptKey.symm)
        have hpred := Finset.pred_card_le_card_erase (s := items.toFinset) (a := kept)
        have hcardLe := Finset.card_le_card herase
        omega
      · have hstrict : items.toFinset ⊆ {item ∈ elements | key item < key one} :=
          fun item hitem ↦ by
            rw [List.mem_toFinset] at hitem
            refine Finset.mem_filter.mpr ⟨hsubset item hitem, ?_⟩
            exact lt_of_le_of_ne (hkey ▸ hle item hitem) fun hitemKey ↦
              hequal ⟨item, hitem, hitemKey⟩
        exact (Finset.card_le_card hstrict).trans (Nat.le_succ _)
  · rintro ⟨hwithin, hties⟩
    have hlength : (items.map key).length = items.length := List.length_map key
    -- enough elements within a bound that is not beyond the first one settle what is left out
    have hsettled {bound : Key} (hbound : bound ≤ key first)
        (henough : limit ≤ {item ∈ elements | key item ≤ bound}.card) :
        items.length = limit ∧ ∀ item ∈ items, key item ≤ bound := by
      obtain ⟨keys, hmany, hpool⟩ := exists_keys hties henough
      obtain ⟨hfull, hle⟩ := hkeys.le_of_enough
        (fun other hother ↦ ⟨⟨(hpool other hother).1.trans hbound, (hpool other hother).2⟩,
          (hpool other hother).1⟩) hmany
      exact ⟨hlength ▸ hfull, fun item hitem ↦ hle _ (List.mem_map_of_mem hitem)⟩
    refine ⟨hnodup, List.pairwise_map.mp hkeys.sorted, hsubset, hlength ▸ hkeys.length_le,
      fun other hother hnot ↦ ?_⟩
    by_cases hbeyond : key first < key other
    · obtain ⟨hfull, hle⟩ := hsettled le_rfl (hwithin other hother hbeyond)
      exact ⟨hfull, fun item hitem ↦ (hle item hitem).trans hbeyond.le⟩
    rw [not_lt] at hbeyond
    by_cases hsame : key other ∈ items.map key
    · obtain ⟨item, hitem, hequal⟩ := List.mem_map.mp hsame
      have hne : item ≠ other := fun heq ↦ hnot (heq ▸ hitem)
      have hmany := hties item (hsubset item hitem) other hother hne hequal
      have hbefore : {item ∈ elements | key item < key other} ⊂
          {item ∈ elements | key item ≤ key other} := by
        refine Finset.ssubset_iff_subset_ne.mpr
          ⟨Finset.monotone_filter_right _ fun _ _ ↦ le_of_lt, fun heq ↦ ?_⟩
        have hmem : other ∈ {item ∈ elements | key item ≤ key other} :=
          Finset.mem_filter.mpr ⟨hother, le_refl _⟩
        rw [← heq] at hmem
        exact lt_irrefl _ (Finset.mem_filter.mp hmem).2
      rw [hequal] at hmany
      exact hsettled hbeyond (hmany.trans (Finset.card_lt_card hbefore))
    · obtain ⟨hfull, hle⟩ := hkeys.left_out _ ⟨hbeyond, other, hother, rfl⟩ hsame
      exact ⟨hlength ▸ hfull, fun item hitem ↦ hle _ (List.mem_map_of_mem hitem)⟩

end PomboStorageNode.Library.Least
