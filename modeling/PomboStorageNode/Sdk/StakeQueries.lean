import PomboStorageNode.Library.Pagination
import Mathlib.Data.List.Nodup
import Mathlib.Data.List.Sort
import Mathlib.Data.String.Basic

/-!
# The stakes of an operator or a sponsorship

`queryEntities` of `TheGraphClient.ts` asks The Graph for the entities behind the id of the last
entity of a full page. `getSponsorships`, `getOperatorsInSponsorship` and `pullStakedStreams` of
`Operator.ts` get stakes that way, each with its own query, and an answer has the fields that the
query selects. The Graph answers in the order of the ids, at most as many as it is asked for.

The query of `pullStakedStreams` does not select the id. Behind a full page it goes on behind the
text `undefined`, and that is above every hexadecimal id (`IsHexadecimal.lt_undefined`): it gets the
first page only. The other two get every stake (`yieldsAll_iff`).
-/

set_option autoImplicit false

namespace PomboStorageNode.Sdk.StakeQueries

open Library

/-! ### The Graph -/

/-- A digit, or a letter up to f. -/
def isHexDigit (char : Char) : Bool :=
  ('0' ≤ char && char ≤ '9') || ('a' ≤ char && char ≤ 'f') || ('A' ≤ char && char ≤ 'F')

/-- Hexadecimal digits, at least one, which may follow `0x`. -/
def IsHexadecimal (id : String) : Prop :=
  ∃ digits : List Char, digits ≠ [] ∧ (∀ digit ∈ digits, isHexDigit digit = true) ∧
    (id.toList = digits ∨ id.toList = '0' :: 'x' :: digits)

/-- A stake of an operator in a sponsorship of a stream. -/
structure Stake where
  id : String
  operatorId : String
  sponsorshipId : String
  operatorCount : ℕ
  streamId : String

/-- The stakes of one operator, or in one sponsorship. -/
structure Stakes where
  entries : List Stake
  nodup_ids : (entries.map Stake.id).Nodup
  isHexadecimal : ∀ stake ∈ entries, IsHexadecimal stake.id

/-- The fields of a stake that a query can select. -/
inductive Field
  | id
  | operatorId
  | sponsorshipId
  | operatorCount
  | streamId
  deriving DecidableEq

/-- A query for stakes. -/
structure Query where
  id_gt : String
  first : ℕ
  fields : List Field

/-- A stake in an answer. A field that was not selected is `undefined`. -/
structure Item where
  id : Option String
  operatorId : Option String
  sponsorshipId : Option String
  operatorCount : Option ℕ
  streamId : Option String

/-- A stake with the selected fields. -/
def select (fields : List Field) (stake : Stake) : Item where
  id := if .id ∈ fields then some stake.id else none
  operatorId := if .operatorId ∈ fields then some stake.operatorId else none
  sponsorshipId := if .sponsorshipId ∈ fields then some stake.sponsorshipId else none
  operatorCount := if .operatorCount ∈ fields then some stake.operatorCount else none
  streamId := if .streamId ∈ fields then some stake.streamId else none

/-- The stakes in the order of their ids. -/
def Stakes.sorted (stakes : Stakes) : List Stake :=
  stakes.entries.insertionSort fun first second ↦ first.id ≤ second.id

/-- The answer of The Graph to a query. -/
def answer (stakes : Stakes) (query : Query) : List Item :=
  ((stakes.sorted.filter (query.id_gt < ·.id)).take query.first).map (select query.fields)

/-! ### The client -/

/-- A value in a template. -/
def template (value : Option String) : String := value.getD "undefined"

/-- The id behind which the next page is, in the template. -/
def nextId (item : Item) : String := template item.id

/-- `queryEntities`, with the entities that a number of requests yields. -/
def queryEntities (createQuery : String → ℕ → Query) (stakes : Stakes) (pageSize requests : ℕ) :
    Option (List Item) :=
  collectPages (fun lastId ↦ answer stakes (createQuery lastId pageSize))
    nextId pageSize requests ""

/-- The page size of `queryEntities` when a caller does not give one. -/
def defaultPageSize : ℕ := 1000

theorem defaultPageSize_pos : 0 < defaultPageSize := Nat.succ_pos 999

variable {EthereumAddress StreamID : Type} (toEthereumAddress : String → EthereumAddress)
  (toStreamID : String → StreamID)

/-- A caller of `queryEntities`, which reads some fields of each entity. A field that is `undefined`
cannot be read. -/
def readStakes {Result : Type} (createQuery : String → ℕ → Query) (read : Item → Option Result)
    (stakes : Stakes) (requests : ℕ) : Option (List Result) :=
  (queryEntities createQuery stakes defaultPageSize requests).bind (List.mapM read)

namespace GetSponsorships

/-- `createQuery`. -/
def createQuery (lastId : String) (pageSize : ℕ) : Query :=
  ⟨lastId, pageSize, [.id, .sponsorshipId, .operatorCount, .streamId]⟩

/-- `GetOperatorSponsorshipsResult`. -/
structure Result (EthereumAddress StreamID : Type) where
  sponsorshipAddress : EthereumAddress
  streamId : StreamID
  operatorCount : ℕ

/-- The result for an item. -/
def read (item : Item) : Option (Result EthereumAddress StreamID) := do
  let sponsorshipId ← item.sponsorshipId
  let streamId ← item.streamId
  let operatorCount ← item.operatorCount
  return ⟨toEthereumAddress sponsorshipId, toStreamID streamId, operatorCount⟩

/-- The result for a stake. -/
def result (stake : Stake) : Result EthereumAddress StreamID :=
  ⟨toEthereumAddress stake.sponsorshipId, toStreamID stake.streamId, stake.operatorCount⟩

end GetSponsorships

/-- `getSponsorships`. -/
def getSponsorships (stakes : Stakes) (requests : ℕ) :
    Option (List (GetSponsorships.Result EthereumAddress StreamID)) :=
  readStakes GetSponsorships.createQuery (GetSponsorships.read toEthereumAddress toStreamID) stakes
    requests

namespace GetOperatorsInSponsorship

/-- `createQuery`. -/
def createQuery (lastId : String) (pageSize : ℕ) : Query :=
  ⟨lastId, pageSize, [.id, .operatorId]⟩

/-- The result for an item. -/
def read (item : Item) : Option EthereumAddress := item.operatorId.map toEthereumAddress

/-- The result for a stake. -/
def result (stake : Stake) : EthereumAddress := toEthereumAddress stake.operatorId

end GetOperatorsInSponsorship

/-- `getOperatorsInSponsorship`. -/
def getOperatorsInSponsorship (stakes : Stakes) (requests : ℕ) : Option (List EthereumAddress) :=
  readStakes GetOperatorsInSponsorship.createQuery
    (GetOperatorsInSponsorship.read toEthereumAddress) stakes requests

namespace PullStakedStreams

/-- `createQuery`. -/
def createQuery (lastId : String) (pageSize : ℕ) : Query :=
  ⟨lastId, pageSize, [.sponsorshipId, .streamId]⟩

/-- What is yielded. -/
structure Result (EthereumAddress StreamID : Type) where
  sponsorship : EthereumAddress
  streamId : StreamID

/-- The result for an item. -/
def read (item : Item) : Option (Result EthereumAddress StreamID) := do
  let sponsorshipId ← item.sponsorshipId
  let streamId ← item.streamId
  return ⟨toEthereumAddress sponsorshipId, toStreamID streamId⟩

/-- The result for a stake. -/
def result (stake : Stake) : Result EthereumAddress StreamID :=
  ⟨toEthereumAddress stake.sponsorshipId, toStreamID stake.streamId⟩

end PullStakedStreams

/-- `pullStakedStreams`. -/
def pullStakedStreams (stakes : Stakes) (requests : ℕ) :
    Option (List (PullStakedStreams.Result EthereumAddress StreamID)) :=
  readStakes PullStakedStreams.createQuery (PullStakedStreams.read toEthereumAddress toStreamID)
    stakes requests

/-! ### The order of the ids -/

theorem lt_u_of_isHexDigit {char : Char} (h : isHexDigit char = true) : char < 'u' := by
  simp only [isHexDigit, Bool.or_eq_true, Bool.and_eq_true, decide_eq_true_eq] at h
  rcases h with (h | h) | h
  · exact h.2.trans_lt (by decide)
  · exact h.2.trans_lt (by decide)
  · exact h.2.trans_lt (by decide)

/-- A hexadecimal id begins with a digit below the letter u. -/
theorem IsHexadecimal.exists_cons {id : String} (h : IsHexadecimal id) :
    ∃ char chars, id.toList = char :: chars ∧ char < 'u' := by
  obtain ⟨digits, hne, hdigits, hplain | hprefixed⟩ := h
  · obtain ⟨char, chars, rfl⟩ := List.exists_cons_of_ne_nil hne
    exact ⟨char, chars, hplain, lt_u_of_isHexDigit (hdigits char List.mem_cons_self)⟩
  · exact ⟨'0', 'x' :: digits, hprefixed, by decide⟩

theorem IsHexadecimal.empty_lt {id : String} (h : IsHexadecimal id) : "" < id := by
  obtain ⟨char, chars, hchars, _⟩ := h.exists_cons
  rw [String.lt_iff_toList_lt, hchars]
  exact List.nil_lt_cons char chars

/-- Every hexadecimal id is below the text of a field that was not selected. -/
theorem IsHexadecimal.lt_undefined {id : String} (h : IsHexadecimal id) : id < template none := by
  obtain ⟨char, chars, hchars, hlt⟩ := h.exists_cons
  rw [String.lt_iff_toList_lt, hchars]
  exact List.cons_lt_cons_iff.mpr (.inl hlt)

/-! ### What a caller reads -/

namespace Stakes

variable (stakes : Stakes)

theorem sorted_perm : stakes.sorted.Perm stakes.entries := List.perm_insertionSort _ _

theorem isHexadecimal_of_mem_sorted {stake : Stake} (hmem : stake ∈ stakes.sorted) :
    IsHexadecimal stake.id :=
  stakes.isHexadecimal stake (stakes.sorted_perm.mem_iff.mp hmem)

theorem pairwise_sorted : stakes.sorted.Pairwise fun first second ↦ first.id < second.id := by
  have htotal : Std.Total fun first second : Stake ↦ first.id ≤ second.id :=
    ⟨fun first second ↦ le_total first.id second.id⟩
  have htrans : IsTrans Stake fun first second ↦ first.id ≤ second.id := ⟨fun _ _ _ ↦ le_trans⟩
  have hle : stakes.sorted.Pairwise fun first second ↦ first.id ≤ second.id :=
    List.pairwise_insertionSort _ _
  have hne : stakes.sorted.Pairwise fun first second ↦ first.id ≠ second.id :=
    List.pairwise_map.mp ((stakes.sorted_perm.map _).nodup_iff.mpr stakes.nodup_ids)
  exact hle.imp₂ (fun _ _ hle hne ↦ lt_of_le_of_ne hle hne) hne

/-- The answers to the queries of a caller are the pages of the stakes. -/
theorem pages {createQuery : String → ℕ → Query} {fields : List Field} (pageSize : ℕ)
    (hquery : ∀ lastId, createQuery lastId pageSize = ⟨lastId, pageSize, fields⟩) :
    Pages Stake.id stakes.sorted (select fields) pageSize
      fun lastId ↦ answer stakes (createQuery lastId pageSize) := by
  refine ⟨stakes.pairwise_sorted, ?_⟩
  intro lastId
  rw [hquery]
  rfl

end Stakes

theorem mapM_map_eq_some {Value Source Result : Type} {read : Value → Option Result}
    {view : Source → Value} {result : Source → Result}
    (hread : ∀ source, read (view source) = some (result source)) (sources : List Source) :
    (sources.map view).mapM read = some (sources.map result) := by
  induction sources with
  | nil => rfl
  | cons source sources ih =>
    rw [List.map_cons, List.mapM_cons, hread, ih]
    rfl

section Reading

variable {Result : Type} {createQuery : String → ℕ → Query} {read : Item → Option Result}
  {fields : List Field} {result : Stake → Result} (stakes : Stakes)

/-- A caller whose query selects the id reads every stake. -/
theorem readStakes_of_mem
    (hquery : ∀ lastId pageSize, createQuery lastId pageSize = ⟨lastId, pageSize, fields⟩)
    (hread : ∀ stake, read (select fields stake) = some (result stake)) (hid : .id ∈ fields) :
    readStakes createQuery read stakes (stakes.sorted.length + 1) =
      some (stakes.sorted.map result) := by
  have hpages := stakes.pages defaultPageSize (fun lastId ↦ hquery lastId defaultPageSize)
  have hnext : ∀ stake ∈ stakes.sorted, nextId (select fields stake) = stake.id := by
    intro stake _
    rw [nextId, select, if_pos hid]
    rfl
  have hcollected := hpages.collectPages_eq defaultPageSize_pos hnext (List.nil_append _).symm
    (fun _ hmem ↦ nomatch hmem)
    (fun stake hmem ↦ (stakes.isHexadecimal_of_mem_sorted hmem).empty_lt)
    (Nat.lt_succ_self stakes.sorted.length)
  rw [readStakes, queryEntities, hcollected, Option.bind_some]
  exact mapM_map_eq_some hread stakes.sorted

/-- A caller whose query does not select the id reads the first page. -/
theorem readStakes_of_not_mem
    (hquery : ∀ lastId pageSize, createQuery lastId pageSize = ⟨lastId, pageSize, fields⟩)
    (hread : ∀ stake, read (select fields stake) = some (result stake)) (hid : .id ∉ fields) :
    readStakes createQuery read stakes 2 =
      some ((stakes.sorted.take defaultPageSize).map result) := by
  have hpages := stakes.pages defaultPageSize (fun lastId ↦ hquery lastId defaultPageSize)
  have habove : ∀ stake ∈ stakes.sorted, ∀ other ∈ stakes.sorted,
      other.id ≤ nextId (select fields stake) := by
    intro stake _ other hother
    rw [nextId, select, if_neg hid]
    exact (stakes.isHexadecimal_of_mem_sorted hother).lt_undefined.le
  have hcollected := hpages.collectPages_of_above defaultPageSize_pos habove
    (fun stake hmem ↦ (stakes.isHexadecimal_of_mem_sorted hmem).empty_lt)
  rw [readStakes, queryEntities, hcollected, Option.bind_some]
  exact mapM_map_eq_some hread _

/-- What a caller reads does not depend on how many requests there may be. -/
theorem readStakes_unique {first second : ℕ} {results others : List Result}
    (hfirst : readStakes createQuery read stakes first = some results)
    (hsecond : readStakes createQuery read stakes second = some others) : results = others := by
  obtain ⟨items, hitems, hresults⟩ := Option.bind_eq_some_iff.mp hfirst
  obtain ⟨more, hmore, hothers⟩ := Option.bind_eq_some_iff.mp hsecond
  rw [collectPages_unique hitems hmore, hothers] at hresults
  exact (Option.some.inj hresults).symm

/-- A run ends, and has yielded every stake once. -/
def YieldsAll (run : ℕ → Option (List Result)) (result : Stake → Result) (stakes : Stakes) : Prop :=
  ∃ requests results, run requests = some results ∧ results.Perm (stakes.entries.map result)

theorem yieldsAll_of_mem
    (hquery : ∀ lastId pageSize, createQuery lastId pageSize = ⟨lastId, pageSize, fields⟩)
    (hread : ∀ stake, read (select fields stake) = some (result stake)) (hid : .id ∈ fields) :
    YieldsAll (readStakes createQuery read stakes) result stakes :=
  ⟨_, _, readStakes_of_mem stakes hquery hread hid, stakes.sorted_perm.map result⟩

theorem yieldsAll_iff_of_not_mem
    (hquery : ∀ lastId pageSize, createQuery lastId pageSize = ⟨lastId, pageSize, fields⟩)
    (hread : ∀ stake, read (select fields stake) = some (result stake)) (hid : .id ∉ fields) :
    YieldsAll (readStakes createQuery read stakes) result stakes ↔
      stakes.entries.length ≤ defaultPageSize := by
  have hpage := readStakes_of_not_mem stakes hquery hread hid
  have hlength := stakes.sorted_perm.length_eq
  constructor
  · rintro ⟨requests, results, hresults, hperm⟩
    have hcounts := hperm.length_eq
    rw [readStakes_unique stakes hresults hpage, List.length_map, List.length_map,
      List.length_take, hlength] at hcounts
    omega
  · intro hle
    refine ⟨2, _, hpage, ?_⟩
    rw [List.take_of_length_le (hlength.trans_le hle)]
    exact stakes.sorted_perm.map result

end Reading

/-! ### The three callers -/

section Callers

variable (stakes : Stakes)

theorem yieldsAll_getSponsorships :
    YieldsAll (getSponsorships toEthereumAddress toStreamID stakes)
      (GetSponsorships.result toEthereumAddress toStreamID) stakes :=
  yieldsAll_of_mem stakes (fun _ _ ↦ rfl) (fun _ ↦ rfl) (.head _)

theorem yieldsAll_getOperatorsInSponsorship :
    YieldsAll (getOperatorsInSponsorship toEthereumAddress stakes)
      (GetOperatorsInSponsorship.result toEthereumAddress) stakes :=
  yieldsAll_of_mem stakes (fun _ _ ↦ rfl) (fun _ ↦ rfl) (.head _)

theorem yieldsAll_pullStakedStreams_iff :
    YieldsAll (pullStakedStreams toEthereumAddress toStreamID stakes)
      (PullStakedStreams.result toEthereumAddress toStreamID) stakes ↔
      stakes.entries.length ≤ defaultPageSize :=
  yieldsAll_iff_of_not_mem stakes (fun _ _ ↦ rfl) (fun _ ↦ rfl) (by decide)

/-- Each caller ends and yields every stake once, exactly when the stakes are one page at most;
`pullStakedStreams` is the only one to which that matters. -/
theorem yieldsAll_iff :
    (YieldsAll (getSponsorships toEthereumAddress toStreamID stakes)
        (GetSponsorships.result toEthereumAddress toStreamID) stakes ∧
      YieldsAll (getOperatorsInSponsorship toEthereumAddress stakes)
        (GetOperatorsInSponsorship.result toEthereumAddress) stakes) ∧
    (YieldsAll (pullStakedStreams toEthereumAddress toStreamID stakes)
        (PullStakedStreams.result toEthereumAddress toStreamID) stakes ↔
      stakes.entries.length ≤ defaultPageSize) :=
  ⟨⟨yieldsAll_getSponsorships toEthereumAddress toStreamID stakes,
    yieldsAll_getOperatorsInSponsorship toEthereumAddress stakes⟩,
    yieldsAll_pullStakedStreams_iff toEthereumAddress toStreamID stakes⟩

end Callers

/-- The letter a, as often as it is asked for and once more. -/
def unaryId (n : ℕ) : String := String.ofList (List.replicate (n + 1) 'a')

theorem isHexadecimal_unaryId (n : ℕ) : IsHexadecimal (unaryId n) := by
  refine ⟨List.replicate (n + 1) 'a', List.cons_ne_nil _ _, ?_, .inl String.toList_ofList⟩
  intro digit hmem
  rw [List.eq_of_mem_replicate hmem]
  rfl

theorem unaryId_injective : Function.Injective unaryId := by
  intro first second heq
  have hlists := congrArg (List.length ∘ String.toList) heq
  simpa [unaryId] using hlists

/-- Stakes in sponsorships of one stream. -/
def manyStakes (count : ℕ) : Stakes where
  entries := (List.range count).map fun n ↦ ⟨unaryId n, "0x01", unaryId n, 1, "stream"⟩
  nodup_ids := by
    rw [List.map_map]
    exact List.nodup_range.map unaryId_injective
  isHexadecimal := by
    intro stake hmem
    obtain ⟨n, _, rfl⟩ := List.mem_map.mp hmem
    exact isHexadecimal_unaryId n

theorem length_manyStakes (count : ℕ) : (manyStakes count).entries.length = count := by
  rw [manyStakes, List.length_map, List.length_range]

/-- One stake more than a page has. -/
theorem not_yieldsAll_pullStakedStreams :
    ¬ YieldsAll (pullStakedStreams id id (manyStakes 1001)) (PullStakedStreams.result id id)
      (manyStakes 1001) := by
  rw [yieldsAll_pullStakedStreams_iff, length_manyStakes]
  decide

end PomboStorageNode.Sdk.StakeQueries
