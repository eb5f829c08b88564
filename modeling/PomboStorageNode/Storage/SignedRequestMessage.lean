import PomboStorageNode.Library.Delimited
import PomboStorageNode.Storage.PurgeEndpoint
import Mathlib.Data.List.Lex
import Mathlib.Data.List.Sort

/-!
# Which request a signature covers

The message that a client signs is a join of lines, and the query of a read is in turn a join of
parameters with ampersands, nothing of which is escaped. The stream id and the nonce are free
texts, so a line break in one of them moves the boundary of a field, and so does an ampersand or an
equals sign in a parameter. Two requests with one message are therefore the same request exactly
when they have the same `layout`: as many line breaks in each of the free fields, and as many
ampersands and equals signs in each parameter (`sameRequest_iff_layout`).

The text of a number is a parameter; `NumberText` is what the language promises about it.
-/

set_option autoImplicit false

namespace PomboStorageNode.Storage.SignedRequestMessage

open Library SignedRequest PurgeEndpoint

/-! ### Queries -/

/-- A value of a parsed query: a text, or the list of the texts of a repeated parameter. -/
inductive QueryValue
  | single (value : String)
  | repeated (first second : String) (others : List String)
  deriving DecidableEq

/-- The texts of a value. -/
def QueryValue.values : QueryValue → List String
  | .single value => [value]
  | .repeated first second others => first :: second :: others

/-- A parsed query. -/
abbrev Query := OrderedMap String QueryValue

/-- The UTF-16 code units of a character. -/
def utf16Units (character : Char) : List ℕ :=
  if character.val.toNat < 0x10000 then [character.val.toNat]
  else [0xD800 + (character.val.toNat - 0x10000) / 0x400,
    0xDC00 + (character.val.toNat - 0x10000) % 0x400]

/-- The UTF-16 code units of a text, by which `sort` compares texts. -/
def utf16 (text : String) : List ℕ := text.toList.flatMap utf16Units

/-- `Object.keys(query).sort()`. -/
def sortedKeys (query : Query) : List String :=
  query.keys.insertionSort fun first second ↦ utf16 first ≤ utf16 second

/-- The parameters of the canonical query: the values of each name, in the order of the names. -/
def queryParts (query : Query) : List (String × String) :=
  (sortedKeys query).flatMap fun key ↦
    (((query.get? key).map QueryValue.values).getD []).map fun value ↦ (key, value)

/-- `canonicalQuery`. -/
def canonicalQuery (query : Query) : String :=
  String.intercalate "&" ((queryParts query).map fun part ↦ part.1 ++ "=" ++ part.2)

/-! ### Requests -/

variable {Number : Type*}

/-- A target of a purge or of a stored check. -/
structure Target (Number : Type*) where
  timestamp : Number
  sequenceNumber : Number

/-- What a request asks for. -/
inductive Content (Number : Type*)
  | purge (targets : List (Target Number))
  | stored (targets : List (Target Number))
  | read (resendType : String) (query : Query)

/-- A signed request, without the signature and the user. -/
structure Request (Number : Type*) where
  streamId : String
  partition : Number
  issuedAt : Number
  nonce : String
  content : Content Number

/-- The purpose under which the endpoint verifies a request. -/
def Content.purpose : Content Number → String
  | .purge _ => "purge"
  | .stored _ => "stored"
  | .read _ _ => "read"

/-- The payload lines that the endpoint computes for a request. -/
def Content.payloadLines (numberToString : Number → String) : Content Number → List String
  | .purge targets => targets.map fun target ↦
      targetToLine numberToString target.timestamp target.sequenceNumber
  | .stored targets => targets.map fun target ↦
      targetToLine numberToString target.timestamp target.sequenceNumber
  | .read resendType query => [resendType, canonicalQuery query]

/-- The message of a request. -/
def Request.message (numberToString : Number → String) (request : Request Number) : String :=
  createSignedRequestMessage numberToString request.content.purpose request.streamId
    request.partition request.issuedAt request.nonce
    (request.content.payloadLines numberToString)

/-- The targets of a request that has some. -/
def Content.AdmittedTargets : Content Number → Prop
  | .purge targets => 0 < targets.length ∧ targets.length ≤ maxTargets
  | .stored targets => 0 < targets.length ∧ targets.length ≤ maxTargets
  | .read _ _ => True

/-- What the endpoints ask of a request: a nonce of the right length and one to a hundred targets.
What `isEnvelope` and `isTarget` ask of the numbers is left out, so that all of them count. -/
def Request.Admitted (request : Request Number) : Prop :=
  8 ≤ utf16Length request.nonce ∧ utf16Length request.nonce ≤ 128 ∧
    request.content.AdmittedTargets

/-- Two requests ask for the same: the same targets, or the same resend type and the same
parameters. -/
def Content.Same : Content Number → Content Number → Prop
  | .purge targets, .purge others => targets = others
  | .stored targets, .stored others => targets = others
  | .read resendType query, .read otherType other =>
    resendType = otherType ∧ ∀ name, query.get? name = other.get? name
  | _, _ => False

/-- Two requests have the same purpose, stream, partition, issue time, nonce and content. -/
def Request.Same (request other : Request Number) : Prop :=
  request.content.purpose = other.content.purpose ∧ request.streamId = other.streamId ∧
    request.partition = other.partition ∧ request.issuedAt = other.issuedAt ∧
    request.nonce = other.nonce ∧ request.content.Same other.content

/-! ### Layouts -/

/-- Where the delimiters inside the free fields of a request are: the line breaks in the stream id,
the nonce and the resend type, and for each parameter of the query the ampersands in it and the
equals signs in its name. -/
structure Layout where
  streamId : ℕ
  nonce : ℕ
  resendType : ℕ
  query : List (ℕ × ℕ)
  deriving DecidableEq

/-- The delimiters in one parameter. -/
def partLayout (part : String × String) : ℕ × ℕ :=
  ((part.1 ++ "=" ++ part.2).toList.count '&', part.1.toList.count '=')

/-- The layout of a request. -/
def Request.layout (request : Request Number) : Layout where
  streamId := request.streamId.toList.count '\n'
  nonce := request.nonce.toList.count '\n'
  resendType := match request.content with
    | .read resendType _ => resendType.toList.count '\n'
    | _ => 0
  query := match request.content with
    | .read _ query => (queryParts query).map partLayout
    | _ => []

/-- What the language promises about the text of a number: it determines the number, and it is made
of digits, letters, signs and points. -/
structure NumberText (numberToString : Number → String) : Prop where
  injective : Function.Injective numberToString
  newline_notMem : ∀ number, '\n' ∉ (numberToString number).toList
  colon_notMem : ∀ number, ':' ∉ (numberToString number).toList

/-! ### Canonical queries -/

/-- The code units of a character determine it and where it ends: a first unit in the surrogate
range belongs to a pair. -/
theorem utf16Units_append_inj {first second : Char} {firstRest secondRest : List ℕ}
    (heq : utf16Units first ++ firstRest = utf16Units second ++ secondRest) :
    first = second ∧ firstRest = secondRest := by
  have hfirst := first.valid
  have hsecond := second.valid
  simp only [UInt32.isValidChar, Nat.isValidChar] at hfirst hsecond
  have hval : first.val.toNat = second.val.toNat ∧ firstRest = secondRest := by
    unfold utf16Units at heq
    split_ifs at heq with hbasic hother hother
    · simpa using heq
    · simp only [List.cons_append, List.cons.injEq] at heq
      omega
    · simp only [List.cons_append, List.cons.injEq] at heq
      omega
    · simp only [List.cons_append, List.nil_append, List.cons.injEq] at heq
      refine ⟨?_, heq.2.2⟩
      omega
  exact ⟨Char.ext (UInt32.toNat_inj.mp hval.1), hval.2⟩

/-- Texts with the same code units are the same. -/
theorem utf16_injective : Function.Injective utf16 := by
  intro first second heq
  unfold utf16 at heq
  rw [← String.toList_inj]
  generalize first.toList = firsts at heq ⊢
  generalize second.toList = seconds at heq ⊢
  have hne : ∀ character rest, utf16Units character ++ rest ≠ [] := by
    intro character rest
    unfold utf16Units
    split_ifs <;> simp
  induction firsts generalizing seconds with
  | nil =>
    cases seconds with
    | nil => rfl
    | cons character seconds => exact absurd heq.symm (hne character _)
  | cons character firsts ih =>
    cases seconds with
    | nil => exact absurd heq (hne character _)
    | cons other seconds =>
      obtain ⟨rfl, hrest⟩ := utf16Units_append_inj heq
      rw [ih seconds hrest]

/-- The names of a query in order depend only on which names it has. -/
theorem sortedKeys_congr {query other : Query}
    (hsame : ∀ name, query.get? name = other.get? name) : sortedKeys query = sortedKeys other := by
  have : Std.Total fun first second : String ↦ utf16 first ≤ utf16 second :=
    ⟨fun first second ↦ le_total (utf16 first) (utf16 second)⟩
  have : IsTrans String fun first second ↦ utf16 first ≤ utf16 second :=
    ⟨fun _ _ _ hfirst hsecond ↦ le_trans hfirst hsecond⟩
  have hkeys : query.keys.Perm other.keys := by
    refine (List.perm_ext_iff_of_nodup query.nodup_keys other.nodup_keys).mpr fun name ↦ ?_
    exact (OrderedMap.mem_keys_iff.trans (by simp only [hsame])).trans
      OrderedMap.mem_keys_iff.symm
  refine List.Perm.eq_of_pairwise ?_ (List.pairwise_insertionSort _ _)
    (List.pairwise_insertionSort _ _)
    ((List.perm_insertionSort _ _).trans (hkeys.trans (List.perm_insertionSort _ _).symm))
  exact fun first second _ _ hle hge ↦ utf16_injective (le_antisymm hle hge)

/-- The parameters of a query depend only on the values of its names. -/
theorem queryParts_congr {query other : Query}
    (hsame : ∀ name, query.get? name = other.get? name) : queryParts query = queryParts other := by
  simp only [queryParts, sortedKeys_congr hsame, hsame]

/-- Of the values listed under distinct names, those of one name are its own.
Assumes: the names are distinct. -/
theorem filter_flatMap_names {names : List String} (hnodup : names.Nodup)
    (values : String → List String) (name : String) :
    ((names.flatMap fun key ↦ (values key).map fun value ↦ (key, value)).filter
      fun part ↦ part.1 = name).map Prod.snd = if name ∈ names then values name else [] := by
  induction names with
  | nil => rfl
  | cons key names ih =>
    obtain ⟨hkey, hnodup⟩ := List.nodup_cons.mp hnodup
    rw [List.flatMap_cons, List.filter_append, List.map_append, ih hnodup]
    by_cases heq : key = name
    · subst heq
      simp [hkey, List.filter_map, Function.comp_def]
    · simp [heq, Ne.symm heq, List.filter_map, Function.comp_def]

/-- The values of a name are its values among the parameters. -/
theorem values_eq_queryParts (query : Query) (name : String) :
    ((query.get? name).map QueryValue.values).getD [] =
      ((queryParts query).filter fun part ↦ part.1 = name).map Prod.snd := by
  have hnodup : (sortedKeys query).Nodup :=
    (List.perm_insertionSort _ _).nodup_iff.mpr query.nodup_keys
  have hmem : name ∈ sortedKeys query ↔ ∃ value, query.get? name = some value :=
    (List.perm_insertionSort _ _).mem_iff.trans OrderedMap.mem_keys_iff
  rw [queryParts, filter_flatMap_names hnodup]
  split_ifs with hname
  · rfl
  · cases hget : query.get? name with
    | none => rfl
    | some value => exact absurd (hmem.mpr ⟨value, hget⟩) hname

theorem QueryValue.values_inj {first second : QueryValue} (hvalues : first.values = second.values) :
    first = second := by
  cases first <;> cases second <;> simp_all [QueryValue.values]

/-- Queries with the same parameters have the same values under every name. -/
theorem get?_eq_of_queryParts {query other : Query} (hparts : queryParts query = queryParts other)
    (name : String) : query.get? name = other.get? name := by
  have hvalues := values_eq_queryParts query name
  rw [hparts, ← values_eq_queryParts other name] at hvalues
  have hne : ∀ value : QueryValue, value.values ≠ [] := by
    intro value
    cases value <;> exact List.cons_ne_nil _ _
  cases hquery : query.get? name with
  | none =>
    cases hother : other.get? name with
    | none => rfl
    | some value =>
      rw [hquery, hother] at hvalues
      exact absurd hvalues.symm (hne value)
  | some value =>
    cases hother : other.get? name with
    | none =>
      rw [hquery, hother] at hvalues
      exact absurd hvalues (hne value)
    | some otherValue =>
      rw [hquery, hother] at hvalues
      exact congrArg some (QueryValue.values_inj hvalues)

/-- Parameters are determined by their texts and the number of equals signs in their names. -/
theorem parts_eq_of_texts {parts others : List (String × String)}
    (hsigns : parts.map (fun part ↦ part.1.toList.count '=') =
      others.map fun part ↦ part.1.toList.count '=')
    (htexts : parts.map (fun part ↦ (part.1 ++ "=" ++ part.2).toList) =
      others.map fun part ↦ (part.1 ++ "=" ++ part.2).toList) : parts = others := by
  induction parts generalizing others with
  | nil =>
    rw [List.map_nil, eq_comm, List.map_eq_nil_iff] at hsigns
    exact hsigns.symm
  | cons part parts ih =>
    cases others with
    | nil => cases hsigns
    | cons next others =>
      obtain ⟨hsign, hsigns⟩ := List.cons.inj hsigns
      obtain ⟨htext, htexts⟩ := List.cons.inj htexts
      rw [ih hsigns htexts]
      simp only [String.toList_append, List.append_assoc] at htext
      obtain ⟨hname, hvalue⟩ := Delimited.append_cons_inj_of_count hsign htext
      rw [Prod.ext (String.toList_inj.mp hname) (String.toList_inj.mp hvalue)]

/-- Canonical queries with the same layout are of the same parameters. -/
theorem queryParts_eq_of_layout {query other : Query}
    (hlayout : (queryParts query).map partLayout = (queryParts other).map partLayout)
    (hcanonical : canonicalQuery query = canonicalQuery other) :
    queryParts query = queryParts other := by
  have hlist := congrArg String.toList hcanonical
  rw [canonicalQuery, canonicalQuery, String.toList_intercalate, String.toList_intercalate]
    at hlist
  have hcounts := congrArg (List.map Prod.fst) hlayout
  have hsigns := congrArg (List.map Prod.snd) hlayout
  rw [List.map_map, List.map_map] at hcounts hsigns
  have htexts := Delimited.intercalate_inj_of_count (by
    rw [List.map_map, List.map_map, List.map_map, List.map_map]
    exact hcounts) hlist
  rw [List.map_map, List.map_map] at htexts
  exact parts_eq_of_texts hsigns htexts

/-! ### Messages -/

section Messages

variable {numberToString : Number → String}

/-- The text of a target determines it, and it is one line. -/
theorem targetToLine_inj (htext : NumberText numberToString) {first second : Target Number}
    (hline : targetToLine numberToString first.timestamp first.sequenceNumber =
      targetToLine numberToString second.timestamp second.sequenceNumber) : first = second := by
  have hlist := congrArg String.toList hline
  simp only [targetToLine, String.toList_append, List.append_assoc] at hlist
  have hcount : ∀ number, (numberToString number).toList.count ':' = 0 := fun number ↦
    List.count_eq_zero.mpr (htext.colon_notMem number)
  obtain ⟨htimestamp, hsequence⟩ := Delimited.append_cons_inj_of_count
    ((hcount first.timestamp).trans (hcount second.timestamp).symm) hlist
  cases first
  cases second
  rw [Target.mk.injEq]
  exact ⟨htext.injective (String.toList_inj.mp htimestamp),
    htext.injective (String.toList_inj.mp hsequence)⟩

theorem newline_notMem_targetToLine (htext : NumberText numberToString) (target : Target Number) :
    '\n' ∉ (targetToLine numberToString target.timestamp target.sequenceNumber).toList := by
  simp only [targetToLine, String.toList_append, List.mem_append, not_or]
  exact ⟨⟨htext.newline_notMem target.timestamp, by decide⟩,
    htext.newline_notMem target.sequenceNumber⟩

/-- The lines of two lists of targets determine them. -/
theorem targets_inj (htext : NumberText numberToString) {targets others : List (Target Number)}
    (htargets : targets ≠ []) (hothers : others ≠ [])
    (hlines : ['\n'].intercalate ((targets.map fun target ↦
        targetToLine numberToString target.timestamp target.sequenceNumber).map String.toList) =
      ['\n'].intercalate ((others.map fun target ↦
        targetToLine numberToString target.timestamp target.sequenceNumber).map String.toList)) :
    targets = others := by
  have hfree : ∀ list : List (Target Number), ∀ field ∈ (list.map fun target ↦
      targetToLine numberToString target.timestamp target.sequenceNumber).map String.toList,
        '\n' ∉ field := by
    intro list field hfield
    rw [List.map_map, List.mem_map] at hfield
    obtain ⟨target, -, rfl⟩ := hfield
    exact newline_notMem_targetToLine htext target
  have hfields := Delimited.intercalate_inj_of_notMem (by simpa using htargets)
    (by simpa using hothers) (hfree targets) (hfree others) hlines
  rw [List.map_map, List.map_map] at hfields
  refine List.map_injective_iff.mpr (fun first second heq ↦ ?_) hfields
  exact targetToLine_inj htext (String.toList_inj.mp heq)

theorem newline_notMem_purpose (content : Content Number) : '\n' ∉ content.purpose.toList := by
  cases content <;> simp [Content.purpose]

theorem payloadLines_ne_nil (numberToString : Number → String) {content : Content Number}
    (hadmitted : content.AdmittedTargets) :
    (content.payloadLines numberToString).map String.toList ≠ [] := by
  cases content with
  | purge targets => simpa [Content.payloadLines] using List.ne_nil_of_length_pos hadmitted.1
  | stored targets => simpa [Content.payloadLines] using List.ne_nil_of_length_pos hadmitted.1
  | read resendType query => simp [Content.payloadLines]

/-- Contents with the same payload lines under one layout are the same. -/
theorem content_same_of_payload (htext : NumberText numberToString) {content other : Content Number}
    (hcontent : content.AdmittedTargets) (hother : other.AdmittedTargets)
    (hpurpose : content.purpose = other.purpose)
    (hresend : ∀ resendType query otherType otherQuery, content = .read resendType query →
      other = .read otherType otherQuery →
        resendType.toList.count '\n' = otherType.toList.count '\n' ∧
          (queryParts query).map partLayout = (queryParts otherQuery).map partLayout)
    (hpayload : ['\n'].intercalate ((content.payloadLines numberToString).map String.toList) =
      ['\n'].intercalate ((other.payloadLines numberToString).map String.toList)) :
    content.Same other := by
  cases content with
  | purge targets =>
    cases other with
    | purge others =>
      exact targets_inj htext (List.ne_nil_of_length_pos hcontent.1)
        (List.ne_nil_of_length_pos hother.1) hpayload
    | stored others => simp [Content.purpose] at hpurpose
    | read otherType otherQuery => simp [Content.purpose] at hpurpose
  | stored targets =>
    cases other with
    | stored others =>
      exact targets_inj htext (List.ne_nil_of_length_pos hcontent.1)
        (List.ne_nil_of_length_pos hother.1) hpayload
    | purge others => simp [Content.purpose] at hpurpose
    | read otherType otherQuery => simp [Content.purpose] at hpurpose
  | read resendType query =>
    cases other with
    | read otherType otherQuery =>
      obtain ⟨hcount, hlayout⟩ := hresend _ _ _ _ rfl rfl
      obtain ⟨hresendType, hquery⟩ := Delimited.intercalate_cons_inj (List.cons_ne_nil _ _)
        (List.cons_ne_nil _ _) hcount hpayload
      rw [List.map_nil, List.intercalate_singleton, List.intercalate_singleton] at hquery
      refine ⟨String.toList_inj.mp hresendType, get?_eq_of_queryParts ?_⟩
      exact queryParts_eq_of_layout hlayout (String.toList_inj.mp hquery)
    | purge others => simp [Content.purpose] at hpurpose
    | stored others => simp [Content.purpose] at hpurpose

/-- Requests that are the same have the same layout. -/
theorem layout_eq_of_same {request other : Request Number} (hsame : request.Same other) :
    request.layout = other.layout := by
  obtain ⟨-, hstream, -, -, hnonce, hcontent⟩ := hsame
  obtain ⟨streamId, partition, issuedAt, nonce, content⟩ := request
  obtain ⟨otherStreamId, otherPartition, otherIssuedAt, otherNonce, otherContent⟩ := other
  obtain rfl : streamId = otherStreamId := hstream
  obtain rfl : nonce = otherNonce := hnonce
  cases content with
  | purge targets =>
    cases otherContent with
    | purge others => rfl
    | stored others => cases hcontent
    | read otherType otherQuery => cases hcontent
  | stored targets =>
    cases otherContent with
    | stored others => rfl
    | purge others => cases hcontent
    | read otherType otherQuery => cases hcontent
  | read resendType query =>
    cases otherContent with
    | read otherType otherQuery =>
      obtain ⟨rfl, hquery⟩ := hcontent
      simp only [Request.layout, queryParts_congr hquery]
    | purge others => cases hcontent
    | stored others => cases hcontent

/-- Requests with one message and one layout are the same: the fields come off the message one
after the other, from its start. -/
theorem same_of_layout_eq (htext : NumberText numberToString) {request other : Request Number}
    (hrequest : request.Admitted) (hother : other.Admitted)
    (hmessage : request.message numberToString = other.message numberToString)
    (hlayout : request.layout = other.layout) : request.Same other := by
  obtain ⟨hstream, hnonce, hresend, hquery⟩ := (Layout.mk.injEq ..).mp hlayout
  have hpayload := payloadLines_ne_nil numberToString hrequest.2.2
  have hotherPayload := payloadLines_ne_nil numberToString hother.2.2
  have hnumber : ∀ first second, (numberToString first).toList.count '\n' =
      (numberToString second).toList.count '\n' := fun first second ↦
    (List.count_eq_zero.mpr (htext.newline_notMem first)).trans
      (List.count_eq_zero.mpr (htext.newline_notMem second)).symm
  have hlines := congrArg String.toList hmessage
  simp only [Request.message, createSignedRequestMessage, messageLines,
    String.toList_intercalate, List.map_cons, List.cons_append, List.nil_append] at hlines
  obtain ⟨-, hlines⟩ := Delimited.intercalate_cons_inj (List.cons_ne_nil _ _)
    (List.cons_ne_nil _ _) rfl hlines
  obtain ⟨hpurpose, hlines⟩ := Delimited.intercalate_cons_inj (List.cons_ne_nil _ _)
    (List.cons_ne_nil _ _) ((List.count_eq_zero.mpr (newline_notMem_purpose _)).trans
      (List.count_eq_zero.mpr (newline_notMem_purpose _)).symm) hlines
  obtain ⟨hstreamId, hlines⟩ := Delimited.intercalate_cons_inj (List.cons_ne_nil _ _)
    (List.cons_ne_nil _ _) hstream hlines
  obtain ⟨hpartition, hlines⟩ := Delimited.intercalate_cons_inj (List.cons_ne_nil _ _)
    (List.cons_ne_nil _ _) (hnumber _ _) hlines
  obtain ⟨hissuedAt, hlines⟩ := Delimited.intercalate_cons_inj (List.cons_ne_nil _ _)
    (List.cons_ne_nil _ _) (hnumber _ _) hlines
  obtain ⟨hnonceText, hlines⟩ := Delimited.intercalate_cons_inj hpayload hotherPayload hnonce
    hlines
  refine ⟨String.toList_inj.mp hpurpose, String.toList_inj.mp hstreamId,
    htext.injective (String.toList_inj.mp hpartition),
    htext.injective (String.toList_inj.mp hissuedAt), String.toList_inj.mp hnonceText, ?_⟩
  refine content_same_of_payload htext hrequest.2.2 hother.2.2 (String.toList_inj.mp hpurpose) ?_
    hlines
  intro resendType query otherType otherQuery hread hotherRead
  rw [hread, hotherRead] at hresend hquery
  exact ⟨hresend, hquery⟩

/-- Two admitted requests with one message are the same request if and only if they have the same
layout.
Assumes: the text of a number determines it and contains no line break and no colon. -/
theorem sameRequest_iff_layout (htext : NumberText numberToString) {request other : Request Number}
    (hrequest : request.Admitted) (hother : other.Admitted)
    (hmessage : request.message numberToString = other.message numberToString) :
    request.Same other ↔ request.layout = other.layout :=
  ⟨layout_eq_of_same, same_of_layout_eq htext hrequest hother hmessage⟩

end Messages

/-! ### One message for two requests -/

/-- The decimal text of a natural number is what the language writes for it. -/
theorem numberText_natRepr : NumberText Nat.repr where
  injective := by
    intro first second heq
    have hlist := congrArg String.toList heq
    simp only [Nat.repr, String.toList_ofList] at hlist
    have hvalue := congrArg (fun digits ↦ Nat.ofDigitChars 10 digits 0) hlist
    simpa only [Nat.ofDigitChars_ten_toDigits] using hvalue
  newline_notMem := by
    intro number hmem
    rw [Nat.repr, String.toList_ofList] at hmem
    exact absurd (Nat.isDigit_of_mem_toDigits (by decide) (by decide) hmem) (by decide)
  colon_notMem := by
    intro number hmem
    rw [Nat.repr, String.toList_ofList] at hmem
    exact absurd (Nat.isDigit_of_mem_toDigits (by decide) (by decide) hmem) (by decide)

/-- A purge of two messages. -/
def purgeOfTwo : Request ℕ :=
  ⟨"stream", 0, 1700000000000, "abcdefgh", .purge [⟨5, 0⟩, ⟨6, 0⟩]⟩

/-- A purge of one message whose nonce ends with the line of the other one. -/
def purgeOfOne : Request ℕ :=
  ⟨"stream", 0, 1700000000000, "abcdefgh\n5:0", .purge [⟨6, 0⟩]⟩

/-- A read with two parameters. -/
def readOfTwo : Request ℕ :=
  ⟨"stream", 0, 1700000000000, "abcdefgh", .read "from" ((OrderedMap.empty.set "a"
    (.single "1")).set "b" (.single "2"))⟩

/-- A read with one parameter whose value holds the other one. -/
def readOfOne : Request ℕ :=
  ⟨"stream", 0, 1700000000000, "abcdefgh", .read "from" (OrderedMap.empty.set "a"
    (.single "1&b=2"))⟩

theorem admitted_samples : purgeOfOne.Admitted ∧ purgeOfTwo.Admitted ∧ readOfOne.Admitted ∧
    readOfTwo.Admitted := by
  refine ⟨⟨?_, ?_, ?_, ?_⟩, ⟨?_, ?_, ?_, ?_⟩, ⟨?_, ?_, trivial⟩, ⟨?_, ?_, trivial⟩⟩ <;> decide

/-- The line break in the nonce makes the two purges different. -/
theorem sameRequest_iff_layout_purge : ¬ purgeOfOne.Same purgeOfTwo := by
  obtain ⟨hone, htwo, -⟩ := admitted_samples
  have hmessage : purgeOfOne.message Nat.repr = purgeOfTwo.message Nat.repr := by decide +kernel
  rw [sameRequest_iff_layout numberText_natRepr hone htwo hmessage]
  decide

/-- One signature covers a purge of two messages and, under another nonce, a purge of one of them;
and one signature covers a read with two parameters and a read with one. -/
theorem message_covers_two_requests :
    (purgeOfOne.Admitted ∧ purgeOfTwo.Admitted ∧
      purgeOfOne.message Nat.repr = purgeOfTwo.message Nat.repr ∧
      ¬ purgeOfOne.Same purgeOfTwo) ∧
    (readOfOne.Admitted ∧ readOfTwo.Admitted ∧
      readOfOne.message Nat.repr = readOfTwo.message Nat.repr ∧ ¬ readOfOne.Same readOfTwo) := by
  obtain ⟨hpurgeOne, hpurgeTwo, hreadOne, hreadTwo⟩ := admitted_samples
  refine ⟨⟨hpurgeOne, hpurgeTwo, by decide +kernel, ?_⟩, hreadOne, hreadTwo, by decide +kernel, ?_⟩
  · rintro ⟨-, -, -, -, hnonce, -⟩
    exact absurd hnonce (by decide)
  · rintro ⟨-, -, -, -, -, -, hquery⟩
    exact absurd (hquery "b") (by decide)

end PomboStorageNode.Storage.SignedRequestMessage
