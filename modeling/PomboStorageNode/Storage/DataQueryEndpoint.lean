import PomboStorageNode.Library.IntegerText
import PomboStorageNode.Storage.PurgeEndpoint
import PomboStorageNode.Storage.RequestLast
import PomboStorageNode.Utils.LengthPrefixedFrame
import PomboStorageNode.Utils.UserID

/-!
# The endpoint for data queries

The handler reads the numbers of a query off the front of their texts, answers a query that it does
not understand with an error, and otherwise streams the messages of the storage through a format:
one JSON array, or one frame for each message.
-/

set_option autoImplicit false

namespace PomboStorageNode.Storage.DataQueryEndpoint

open Library Library.IntegerText Utils Utils.LengthPrefixedFrame Tables BucketManager FetchRange
open RequestLast

/-! ### Formats -/

/-- `Format`. A message that cannot be formatted makes `formatMessage` throw. -/
structure Format where
  formatMessage : StoredMessage → Option Buffer
  contentType : String
  delimiter : Option Buffer
  header : Option Buffer
  footer : Option Buffer

/-- `createJsonFormat`. -/
def createJsonFormat (formatMessage : StoredMessage → Option Buffer) : Format where
  formatMessage := formatMessage
  contentType := "application/json"
  delimiter := some ",".toUTF8.toList
  header := some "[".toUTF8.toList
  footer := some "]".toUTF8.toList

/-- `createBinaryFormat`. -/
def createBinaryFormat (formatMessage : StoredMessage → Option Buffer) : Format where
  formatMessage := formatMessage
  contentType := "application/octet-stream"
  delimiter := none
  header := none
  footer := none

/-- The texts of the objects that `toObject` and `toMetadataObject` make of a message. -/
structure JsonTexts where
  object : StoredMessage → Option Buffer
  metadata : StoredMessage → Option Buffer

/-- The format `raw`. -/
def rawFormat : Format := createBinaryFormat fun message ↦ toLengthPrefixedFrame message.payload

/-- `getFormat`. -/
def getFormat (texts : JsonTexts) (id : Option String) : Option Format :=
  match id.getD "object" with
  | "object" => some (createJsonFormat texts.object)
  | "raw" => some rawFormat
  | "metadata" => some (createJsonFormat texts.metadata)
  | _ => none

/-! ### Responses -/

/-- `ResponseTransform`, with what it has pushed. -/
structure ResponseTransform where
  firstMessage : Bool
  pushed : List Buffer

/-- `_transform`. -/
def ResponseTransform.transform (format : Format) (state : ResponseTransform)
    (input : StoredMessage) : Option ResponseTransform :=
  (format.formatMessage input).map fun formatted ↦
    { firstMessage := false
      pushed := state.pushed ++
        (if state.firstMessage then format.header else format.delimiter).toList ++ [formatted] }

/-- `_flush`: everything that was pushed when the stream ends. -/
def ResponseTransform.flush (format : Format) (state : ResponseTransform) : List Buffer :=
  state.pushed ++ (if state.firstMessage then format.header else none).toList ++
    format.footer.toList

/-- The status of an error, and the text in its object. The page that the server makes of an
exception has none. -/
abbrev ErrorResponse := ℕ × Option String

/-- A response: an error; a body, whose type is only set when there are messages; or a body that
breaks off. -/
inductive Response
  | error (error : ErrorResponse)
  | body (contentType : Option String) (chunks : List Buffer)
  | broken

/-- `sendSuccess`. -/
def sendSuccess (data : Except String (List StoredMessage)) (format : Format) : Response :=
  match data with
  | .error _ => .error (500, some "Failed to fetch data!")
  | .ok messages =>
    match messages.foldlM (ResponseTransform.transform format) ⟨true, []⟩ with
    | some state =>
      .body (if messages = [] then none else some format.contentType) (state.flush format)
    | none => .broken

/-- `sendError`. -/
def sendError (message : String) : ErrorResponse := (400, some message)

/-! ### Queries -/

/-- The parameters of the path, and those of the query. -/
structure Request where
  id : String
  partition : String
  resendType : String
  query : List (String × String)

/-- A parameter of the query. -/
def Request.get (request : Request) (name : String) : Option String := request.query.lookup name

/-- The arguments of `fetchRange`. -/
structure RangeArguments where
  fromTimestamp : JsNumber
  fromSequenceNo : JsNumber
  toTimestamp : JsNumber
  toSequenceNo : JsNumber
  publisherId : Option UserID
  msgChainId : Option String

/-- What the handlers ask of the storage. -/
inductive Read
  | last (count : JsNumber)
  | range (arguments : RangeArguments)

/-- `MAX_TIMESTAMP_VALUE`. -/
def maxTimestampValue : ℤ := 8640000000000000

/-- A parameter that has to be a number. -/
def requireNumber (request : Request) (name required : String) : Except ErrorResponse JsNumber :=
  match request.get name with
  | none => throw (sendError required)
  | some text =>
    if parseInt text = .nan then
      throw (sendError ("Query parameter \"" ++ name ++ "\" not a number: " ++ text))
    else return parseInt text

/-- A sequence number with its default. A text that is no number stays `NaN`. -/
def sequenceNumber (request : Request) (name : String) (default : ℤ) : JsNumber :=
  match request.get name with
  | none => .finite default
  | some text => parseInt text

/-- The check of `publisherId`. -/
def getPublisherId (request : Request) : Except ErrorResponse (Option UserID) :=
  match request.get "publisherId" with
  | none => return none
  | some text =>
    match toUserId text with
    | none => throw (sendError ("Query parameter \"publisherId\" not valid: " ++ text))
    | some publisherId => return some publisherId

/-- `handleLast`. -/
def handleLast (request : Request) : Except ErrorResponse Read :=
  match request.get "count" with
  | none => return .last (.finite 1)
  | some text =>
    if parseInt text = .nan then
      throw (sendError ("Query parameter \"count\" not a number: " ++ text))
    else return .last (parseInt text)

/-- `handleFrom`, with `requestFrom`. -/
def handleFrom (request : Request) : Except ErrorResponse Read := do
  let fromTimestamp ← requireNumber request "fromTimestamp"
    "Query parameter \"fromTimestamp\" required."
  let publisherId ← getPublisherId request
  return .range
    { fromTimestamp := fromTimestamp
      fromSequenceNo := sequenceNumber request "fromSequenceNumber" minSequenceNumberValue
      toTimestamp := .finite maxTimestampValue
      toSequenceNo := .finite maxSequenceNumberValue
      publisherId := publisherId
      msgChainId := none }

/-- A parameter counts as given when its text is not empty. -/
def isTruthy (text : Option String) : Bool := text.any fun text ↦ text ≠ ""

/-- `handleRange`, with `requestRange`, which throws when one of the two filters is there alone. -/
def handleRange (request : Request) : Except ErrorResponse Read := do
  if (request.get "fromOffset").isSome ∨ (request.get "toOffset").isSome then
    throw (sendError ("Query parameters \"fromOffset\" and \"toOffset\" are no longer " ++
      "supported. Please use \"fromTimestamp\" and \"toTimestamp\"."))
  let fromTimestamp ← requireNumber request "fromTimestamp"
    "Query parameter \"fromTimestamp\" required."
  let toTimestamp ← requireNumber request "toTimestamp"
    ("Query parameter \"toTimestamp\" required as well. To request all messages since a " ++
      "timestamp, use the endpoint /streams/:id/data/partitions/:partition/from")
  if isTruthy (request.get "publisherId") ≠ isTruthy (request.get "msgChainId") then
    throw (sendError "Invalid combination of \"publisherId\" and \"msgChainId\"")
  let publisherId ← getPublisherId request
  if publisherId.isSome ≠ (request.get "msgChainId").isSome then
    throw (500, none)
  return .range
    { fromTimestamp := fromTimestamp
      fromSequenceNo := sequenceNumber request "fromSequenceNumber" minSequenceNumberValue
      toTimestamp := toTimestamp
      toSequenceNo := sequenceNumber request "toSequenceNumber" maxSequenceNumberValue
      publisherId := publisherId
      msgChainId := request.get "msgChainId" }

/-- `createHandler`, up to the call of the storage. -/
def createHandler (texts : JsonTexts) (request : Request) :
    Except ErrorResponse (Format × Read) := do
  if parseInt request.partition = .nan then
    throw (sendError ("Path parameter \"partition\" not a number: " ++ request.partition))
  match getFormat texts (request.get "format") with
  | none =>
    throw (sendError ("Query parameter \"format\" is invalid: " ++ (request.get "format").getD ""))
  | some format =>
    let read ← match request.resendType with
      | "last" => handleLast request
      | "from" => handleFrom request
      | "range" => handleRange request
      | _ => throw (sendError "Unknown resend type")
    return (format, read)

/-! ### Reading from the storage -/

/-- The integer that a number is, if it is finite. -/
def integer? : JsNumber → Option ℤ
  | .finite value => some value.num
  | _ => none

/-- The range of the arguments, if the numbers are finite. -/
def RangeArguments.toRequest? (arguments : RangeArguments) (streamPart : StreamPart) :
    Option RangeRequest := do
  let fromTimestamp ← integer? arguments.fromTimestamp
  let fromSequenceNo ← integer? arguments.fromSequenceNo
  let toTimestamp ← integer? arguments.toTimestamp
  let toSequenceNo ← integer? arguments.toSequenceNo
  return ⟨streamPart, fromTimestamp, fromSequenceNo, toTimestamp, toSequenceNo,
    arguments.publisherId.map UserID.text, arguments.msgChainId⟩

variable (order : RowOrder) (options : BucketManagerOptions) (now : ℤ)
  (buckets : BucketTable) (data : StreamData)

/-- What the storage streams. It is left open what the database makes of a number that is not
finite. -/
def readStorage (streamPart : StreamPart) : Read → Option (Except String (List StoredMessage))
  | .last count =>
    (integer? count).map fun count ↦ requestLast order buckets data streamPart count.toNat
  | .range arguments =>
    (arguments.toRequest? streamPart).map fun range ↦ fetchRange options now buckets data range

/-- The response to a request. There are no rows under a stream part that cannot be. -/
def respond (texts : JsonTexts) (request : Request) : Option Response :=
  match createHandler texts request with
  | .error error => some (.error error)
  | .ok (format, read) =>
    (integer? (parseInt request.partition)).bind fun partition ↦
      match PurgeEndpoint.streamPart? request.id partition with
      | none => some (sendSuccess (.ok []) format)
      | some streamPart =>
        (readStorage order options now buckets data streamPart read).map (sendSuccess · format)

/-! ### Frames -/

@[simp] theorem flush_rawFormat (state : ResponseTransform) :
    state.flush rawFormat = state.pushed := by
  simp [ResponseTransform.flush, rawFormat, createBinaryFormat]

theorem transform_rawFormat {message : StoredMessage} {frame : Buffer}
    (hframe : toLengthPrefixedFrame message.payload = some frame) (state : ResponseTransform) :
    state.transform rawFormat message = some ⟨false, state.pushed ++ [frame]⟩ := by
  simp [ResponseTransform.transform, rawFormat, createBinaryFormat, hframe]

/-- The raw format makes one chunk of each message, its frame. -/
theorem foldlM_transform_rawFormat {messages : List StoredMessage} {chunks : List Buffer}
    (hchunks : (messages.map StoredMessage.payload).mapM toLengthPrefixedFrame = some chunks)
    (state : ResponseTransform) :
    ∃ after, messages.foldlM (ResponseTransform.transform rawFormat) state = some after ∧
      after.pushed = state.pushed ++ chunks := by
  induction messages generalizing chunks state with
  | nil =>
    obtain rfl : [] = chunks := Option.some.inj hchunks
    exact ⟨state, rfl, (List.append_nil _).symm⟩
  | cons message messages ih =>
    rw [List.map_cons, List.mapM_cons] at hchunks
    obtain ⟨frame, hframe, hrest⟩ := Option.bind_eq_some_iff.mp hchunks
    obtain ⟨frames, hframes, heq⟩ := Option.bind_eq_some_iff.mp hrest
    obtain rfl : frame :: frames = chunks := Option.some.inj heq
    obtain ⟨after, hafter, hpushed⟩ := ih hframes ⟨false, state.pushed ++ [frame]⟩
    refine ⟨after, ?_, ?_⟩
    · rw [List.foldlM_cons, transform_rawFormat hframe]
      exact hafter
    · rw [hpushed, List.append_assoc, List.singleton_append]

/-- The frames of short messages come back from the body, however it is cut. -/
theorem decode_sendSuccess_rawFormat {messages : List StoredMessage}
    (hlength : ∀ message ∈ messages, message.payload.length < 2 ^ 32) :
    ∃ contentType chunks, sendSuccess (.ok messages) rawFormat = .body contentType chunks ∧
      ∀ cut : List Buffer, cut.flatten = chunks.flatten →
        LengthPrefixedFrameDecoder.decode cut = messages.map StoredMessage.payload := by
  have hshort : ∀ payload ∈ messages.map StoredMessage.payload, payload.length < 2 ^ 32 := by
    intro payload hpayload
    obtain ⟨message, hmem, rfl⟩ := List.mem_map.mp hpayload
    exact hlength message hmem
  obtain ⟨state, hstate, hpushed⟩ :=
    foldlM_transform_rawFormat (mapM_toLengthPrefixedFrame hshort) ⟨true, []⟩
  refine ⟨_, state.flush rawFormat, by rw [sendSuccess, hstate], fun cut hcut ↦ ?_⟩
  have hwrites : ∀ payload ∈ messages.map StoredMessage.payload, ∀ more, frames.next
      ((toLengthPrefixedFrame payload).getD [] ++ more) = some (payload, more) := by
    intro payload hpayload more
    obtain ⟨frame, hframe⟩ := toLengthPrefixedFrame_of_lt (hshort payload hpayload)
    rw [hframe]
    exact nextFrame_frame hframe more
  rw [decode_eq, hcut, flush_rawFormat, hpushed, List.nil_append,
    Chunks.Reader.drain_flatten_of_writes hwrites]

end PomboStorageNode.Storage.DataQueryEndpoint
