import PomboStorageNode.Library.Transition
import PomboStorageNode.Utils

/-!
# Gates and the streams last seen as public

`PomboGates.getGate` and `PomboGates.isPublicSubscribe` ask the chain about a stream, behind two
caches. Each awaits the chain, so calls are objects in flight: the chain answers a call (`answer`),
and some time later the call goes on with the answer (`resume`), possibly after calls that were
answered later. Both write to `KnownPublicStreams`, which the read guard consults when the chain is
silent.

The set should hold the streams whose latest answers were no gate and public `SUBSCRIBE`. A call
that writes a public answer does not look at what was written since it asked, so the set is right
only when no contradicting answer was already written: `RightWhenWritten` is that condition, on
the one step that adds a stream. With it, a known public stream whose latest answers say otherwise
has a contradicting answer that a call in flight will still write (`step_tracks`), and once no call
is in flight the set is right (`knownPublic_confirmed`).
-/

set_option autoImplicit false

namespace PomboStorageNode.Storage.PomboGates

open Library Utils

/-! ### What the chain says -/

/-- `GateInfo`. -/
structure GateInfo where
  address : EthereumAddress
  owner : EthereumAddress
  readOnly : Bool
  visible : Bool
  deriving DecidableEq

/-- The metadata of a stream, as far as `parsePomboDescription` reads it: the texts under the keys
`g` and `ln` of the JSON document in the description. A key that is missing or holds no text, and a
description that is no JSON object, read as `none`. -/
structure StreamMetadata where
  g : Option String
  ln : Option String
  deriving DecidableEq

/-- `parseGateAddress`. -/
def parseGateAddress (metadata : StreamMetadata) : Option EthereumAddress :=
  metadata.g.bind toEthereumAddress

/-- `parseLinkedStream`. -/
def parseLinkedStream (metadata : StreamMetadata) : Option String :=
  metadata.ln.filter fun linked ↦ linked ≠ ""

/-- What comes back from the chain. -/
inductive ChainAnswer
  | failed
  | streamNotFound
  | metadata (metadata : StreamMetadata)
  | info (info : GateInfo)
  | permission (granted : Bool)
  deriving DecidableEq

/-! ### Calls in flight -/

/-- What a call awaits: `getGate` the metadata of the stream, then perhaps those of the linked
stream, then perhaps the gate; `isPublicSubscribe` the public permission. -/
inductive Awaiting
  | metadata
  | linkedMetadata
  | info (gateAddress : EthereumAddress)
  | permission
  deriving DecidableEq

/-- A call in flight about a stream, with the answer it has not gone on with yet. -/
structure CallInFlight where
  streamId : String
  awaiting : Awaiting
  answer : Option ChainAnswer
  deriving DecidableEq

/-- The answers that fit a question. -/
def Awaiting.admits : Awaiting → ChainAnswer → Bool
  | _, .failed => true
  | .metadata, .streamNotFound => true
  | .metadata, .metadata _ => true
  | .linkedMetadata, .streamNotFound => true
  | .linkedMetadata, .metadata _ => true
  | .info _, .info _ => true
  | .permission, .permission _ => true
  | _, _ => false

/-- What the chain said about the gate of a stream. -/
inductive GateAnswer
  | noGate
  | gate
  | streamNotFound
  deriving DecidableEq

/-- The linked stream that `getGate` asks about next, if it does. -/
def linkedToAsk (streamId : String) (metadata : StreamMetadata) : Option String :=
  (parseLinkedStream metadata).filter fun linked ↦ linked ≠ streamId

/-- What an answer says about the gate of the stream, if it settles that. Metadata without a gate
that name another stream leave it to that stream. -/
def gateAnswer (call : CallInFlight) (answer : ChainAnswer) : Option GateAnswer :=
  match call.awaiting, answer with
  | .metadata, .streamNotFound => some .streamNotFound
  | .metadata, .metadata metadata =>
    if (parseGateAddress metadata).isSome then some .gate
    else if (linkedToAsk call.streamId metadata).isSome then none
    else some .noGate
  | .linkedMetadata, .metadata metadata =>
    if (parseGateAddress metadata).isSome then some .gate else some .noGate
  | _, _ => none

/-- What an answer says about public `SUBSCRIBE` on the stream. -/
def subscribeAnswer (call : CallInFlight) (answer : ChainAnswer) : Option Bool :=
  match call.awaiting, answer with
  | .permission, .permission granted => some granted
  | _, _ => none

/-- The object, the calls in flight, and the latest answers of the chain about each stream. -/
structure State where
  gateCache : OrderedMap String (Option GateInfo)
  subscribePublicCache : OrderedMap String Bool
  knownPublic : OrderedSet String
  calls : OrderedMap ℕ CallInFlight
  lastGate : OrderedMap String GateAnswer
  lastSubscribe : OrderedMap String Bool

/-- `KnownPublicStreams.set`. -/
def setKnownPublic (streams : OrderedSet String) (streamId : String) (isPublic : Bool) :
    OrderedSet String :=
  if isPublic = decide (streamId ∈ streams) then streams
  else if isPublic then streams.add streamId
  else streams.delete streamId

/-- `wasLastSeenPublic`. -/
def wasLastSeenPublic (state : State) (streamId : String) : Bool := streamId ∈ state.knownPublic

/-! ### Steps -/

/-- `getGate` up to its first await. A cached gate is returned at once. -/
def beginGetGate (state : State) (call : ℕ) (streamId : String) : State :=
  if state.gateCache.has streamId then state
  else { state with calls := state.calls.set call ⟨streamId, .metadata, none⟩ }

/-- `isPublicSubscribe` up to its await. A cached answer is returned at once. -/
def beginIsPublicSubscribe (state : State) (call : ℕ) (streamId : String) : State :=
  if state.subscribePublicCache.has streamId then state
  else { state with calls := state.calls.set call ⟨streamId, .permission, none⟩ }

/-- The chain answers a call. -/
def recordAnswer (state : State) (call : ℕ) (inFlight : CallInFlight) (answer : ChainAnswer) :
    State :=
  { state with
    calls := state.calls.set call { inFlight with answer := some answer }
    lastGate := match gateAnswer inFlight answer with
      | some said => state.lastGate.set inFlight.streamId said
      | none => state.lastGate
    lastSubscribe := match subscribeAnswer inFlight answer with
      | some said => state.lastSubscribe.set inFlight.streamId said
      | none => state.lastSubscribe }

/-- The end of a call, by a result or by an exception. -/
def endCall (state : State) (call : ℕ) : State :=
  { state with calls := state.calls.delete call }

/-- `getGate` once it knows whether there is a gate: a gate is looked up, and no gate is cached. -/
def continueWithGate (state : State) (call : ℕ) (streamId : String)
    (gateAddress : Option EthereumAddress) : State :=
  match gateAddress with
  | some address =>
    { state with
      knownPublic := setKnownPublic state.knownPublic streamId false
      calls := state.calls.set call ⟨streamId, .info address, none⟩ }
  | none => endCall { state with gateCache := state.gateCache.set streamId none } call

/-- A call goes on with the answer it got. -/
def resumeCall (state : State) (call : ℕ) (inFlight : CallInFlight) (answer : ChainAnswer) :
    State :=
  match inFlight.awaiting, answer with
  | .metadata, .streamNotFound =>
    endCall { state with
      knownPublic := setKnownPublic state.knownPublic inFlight.streamId false } call
  | .metadata, .metadata metadata =>
    match parseGateAddress metadata, linkedToAsk inFlight.streamId metadata with
    | none, some _ =>
      { state with calls := state.calls.set call ⟨inFlight.streamId, .linkedMetadata, none⟩ }
    | gateAddress, _ => continueWithGate state call inFlight.streamId gateAddress
  | .linkedMetadata, .metadata metadata =>
    continueWithGate state call inFlight.streamId (parseGateAddress metadata)
  | .info _, .info info =>
    endCall { state with gateCache := state.gateCache.set inFlight.streamId (some info) } call
  | .permission, .permission granted =>
    endCall { state with
      subscribePublicCache := state.subscribePublicCache.set inFlight.streamId granted
      knownPublic := setKnownPublic state.knownPublic inFlight.streamId granted } call
  -- the awaited lookup failed and the call rethrows
  | _, _ => endCall state call

/-- What can happen. -/
inductive Event
  | beginGetGate (call : ℕ) (streamId : String)
  | beginIsPublicSubscribe (call : ℕ) (streamId : String)
  | answer (call : ℕ) (answer : ChainAnswer)
  | resume (call : ℕ)
  | expireGate (streamId : String)
  | expireSubscribePublic (streamId : String)
  deriving DecidableEq

/-- The step relation: a call starts under a number that is free, is answered once with an answer
that fits, and goes on after it was answered; cache entries expire at any time. -/
def step (state : State) : Event → Option State
  | .beginGetGate call streamId =>
    if state.calls.has call then none else some (beginGetGate state call streamId)
  | .beginIsPublicSubscribe call streamId =>
    if state.calls.has call then none else some (beginIsPublicSubscribe state call streamId)
  | .answer call answer =>
    match state.calls.get? call with
    | some inFlight =>
      if inFlight.answer = none ∧ inFlight.awaiting.admits answer = true then
        some (recordAnswer state call inFlight answer)
      else none
    | none => none
  | .resume call =>
    match state.calls.get? call with
    | some inFlight => inFlight.answer.map (resumeCall state call inFlight)
    | none => none
  | .expireGate streamId =>
    some { state with gateCache := state.gateCache.delete streamId }
  | .expireSubscribePublic streamId =>
    some { state with subscribePublicCache := state.subscribePublicCache.delete streamId }

/-- The latest answers about the stream were no gate and public `SUBSCRIBE`. -/
def Confirmed (state : State) (streamId : String) : Prop :=
  state.lastGate.get? streamId = some .noGate ∧ state.lastSubscribe.get? streamId = some true

instance (state : State) (streamId : String) : Decidable (Confirmed state streamId) := by
  unfold Confirmed
  infer_instance

/-! ### The read guard -/

/-- `OPEN_STREAM_SUFFIX`. -/
def openStreamSuffix : String := "-3"

/-- How `getGate` ended. -/
inductive GateLookup
  | failed
  | streamNotFound
  | answered (gate : Option GateInfo)
  deriving DecidableEq

/-- How the lookups of one read ended; `none` is a lookup that failed, and `user` is the result of
the signature check. -/
structure ReadLookups where
  gate : GateLookup
  isPublicSubscribe : Option Bool
  user : Except String EthereumAddress
  hasSubscribe : Option Bool
  isModerator : Option Bool
  hasAccess : Option Bool

/-- What the guard does with a read: it passes it on, or answers with a status and an error. -/
inductive ReadResponse
  | next
  | status (code : ℕ) (error : String)
  deriving DecidableEq

/-- `accessCheck`: on a gated channel the owner, a moderator or an account that the gate accepts,
and elsewhere an account with `SUBSCRIBE`. A failed lookup is reached only when those before it
refused. -/
def accessCheck (lookups : ReadLookups) (gate : Option GateInfo) (user : EthereumAddress) :
    Option Bool :=
  match gate with
  | none => lookups.hasSubscribe
  | some info =>
    if user = info.owner then some true
    else match lookups.isModerator with
      | some true => some true
      | some false => lookups.hasAccess
      | none => none

/-- The part of the guard that asks for a signature. -/
def requireSignature (lookups : ReadLookups) (gate : Option GateInfo) : ReadResponse :=
  match lookups.user with
  | .error message => .status 401 message
  | .ok user =>
    match accessCheck lookups gate user with
    | none => .status 503 "Cannot verify access right now"
    | some false => .status 403 "No access to this stream"
    | some true => .next

/-- The handler of `createSignedReadGuard`, for a partition that is `none` when it is not a number.
The argument `lastSeenPublic` is the answer of `wasLastSeenPublic`. -/
def signedReadGuard (enabled : Bool) (streamId : String) (partition : Option ℤ)
    (lastSeenPublic : Bool) (lookups : ReadLookups) : ReadResponse :=
  if enabled = false then .next
  else if partition = none ∨ openStreamSuffix.toList.isSuffixOf streamId.toList = true then .next
  else match lookups.gate with
    | .streamNotFound => .status 404 "Stream not found"
    | .failed =>
      if lastSeenPublic then .next else .status 503 "Cannot verify access right now"
    | .answered none =>
      match lookups.isPublicSubscribe with
      | none => if lastSeenPublic then .next else .status 503 "Cannot verify access right now"
      | some true => .next
      | some false => requireSignature lookups none
    | .answered (some info) => requireSignature lookups (some info)

/-- The chain is out for the read: the gate, or the public permission of a stream without gate,
could not be looked up. -/
def ChainOutage (lookups : ReadLookups) : Prop :=
  lookups.gate = .failed ∨ (lookups.gate = .answered none ∧ lookups.isPublicSubscribe = none)

/-- During an outage the guard passes on only reads of streams last seen as public.
Assumes: the guard is enabled, the partition is a number and the stream is not an open one. -/
theorem lastSeenPublic_of_served {streamId : String} {partition : ℤ} {lastSeenPublic : Bool}
    {lookups : ReadLookups} (hclosed : openStreamSuffix.toList.isSuffixOf streamId.toList = false)
    (houtage : ChainOutage lookups)
    (hserved : signedReadGuard true streamId (some partition) lastSeenPublic lookups = .next) :
    lastSeenPublic = true := by
  cases lastSeenPublic with
  | true => rfl
  | false =>
    rcases houtage with hgate | ⟨hgate, hpermission⟩
    · simp [signedReadGuard, hclosed, hgate] at hserved
    · simp [signedReadGuard, hclosed, hgate, hpermission] at hserved

/-! ### Answers that are still to be written -/

/-- The answer will take the stream off the set when the call goes on. -/
def Contradicts (call : CallInFlight) (answer : ChainAnswer) : Prop :=
  gateAnswer call answer = some .gate ∨ gateAnswer call answer = some .streamNotFound ∨
    subscribeAnswer call answer = some false

instance (call : CallInFlight) (answer : ChainAnswer) : Decidable (Contradicts call answer) := by
  unfold Contradicts
  infer_instance

/-- A call in flight about the stream has got a contradicting answer and not gone on with it. -/
def ContradictionPending (state : State) (streamId : String) : Prop :=
  ∃ call inFlight answer, state.calls.get? call = some inFlight ∧ inFlight.streamId = streamId ∧
    inFlight.answer = some answer ∧ Contradicts inFlight answer

/-- The stream that an event adds to the set: a call goes on with a public answer about it. -/
def writesPublic (state : State) (event : Event) : Option String :=
  match event with
  | .resume call => (state.calls.get? call).bind fun inFlight ↦
      if inFlight.answer.bind (subscribeAnswer inFlight) = some true then some inFlight.streamId
      else none
  | _ => none

/-- The condition on a step that writes a public answer: the latest answers about the stream agree,
or a contradicting answer is still to be written. -/
def RightWhenWritten (state : State) (event : Event) : Prop :=
  ∀ streamId, writesPublic state event = some streamId →
    Confirmed state streamId ∨ ContradictionPending state streamId

/-- A start: no call is in flight, and the streams loaded as public are those whose latest answers,
of the time before the start, say so. -/
def Start (state : State) : Prop :=
  state.calls.entries = [] ∧ ∀ streamId ∈ state.knownPublic, Confirmed state streamId

/-- The invariant: a stream in the set is confirmed, or will be taken off it. -/
def Tracks (state : State) : Prop :=
  ∀ streamId ∈ state.knownPublic,
    Confirmed state streamId ∨ ContradictionPending state streamId

theorem mem_setKnownPublic {streams : OrderedSet String} {streamId other : String}
    {isPublic : Bool} : other ∈ setKnownPublic streams streamId isPublic ↔
      (other = streamId ∧ isPublic = true) ∨ (other ≠ streamId ∧ other ∈ streams) := by
  unfold setKnownPublic
  by_cases hmem : streamId ∈ streams
  · cases isPublic with
    | true =>
      by_cases heq : other = streamId <;> simp [hmem, heq]
    | false =>
      by_cases heq : other = streamId <;> simp [hmem, heq]
  · cases isPublic with
    | true =>
      by_cases heq : other = streamId <;> simp [hmem, heq]
    | false =>
      by_cases heq : other = streamId <;> simp [hmem, heq]

/-- What going on with an answer writes to the set. -/
def knownPublicAfter (streams : OrderedSet String) (call : CallInFlight) (answer : ChainAnswer) :
    OrderedSet String :=
  if Contradicts call answer then setKnownPublic streams call.streamId false
  else if subscribeAnswer call answer = some true then setKnownPublic streams call.streamId true
  else streams

/-- A step of one call: no other call and no recorded answer is touched. -/
structure OfOneCall (state after : State) (call : ℕ) : Prop where
  lastGate : after.lastGate = state.lastGate
  lastSubscribe : after.lastSubscribe = state.lastSubscribe
  calls : ∀ other, other ≠ call → after.calls.get? other = state.calls.get? other

theorem endCall_ofOneCall (state : State) (call : ℕ) :
    OfOneCall state (endCall state call) call :=
  ⟨rfl, rfl, fun _ hne ↦ OrderedMap.get?_delete_of_ne _ hne⟩

theorem continueWithGate_ofOneCall (state : State) (call : ℕ) (streamId : String)
    (gateAddress : Option EthereumAddress) :
    OfOneCall state (continueWithGate state call streamId gateAddress) call := by
  cases gateAddress with
  | none => exact ⟨rfl, rfl, fun _ hne ↦ OrderedMap.get?_delete_of_ne _ hne⟩
  | some address => exact ⟨rfl, rfl, fun _ hne ↦ OrderedMap.get?_set_of_ne _ _ hne⟩

theorem continueWithGate_knownPublic (state : State) (call : ℕ) (streamId : String)
    (gateAddress : Option EthereumAddress) :
    (continueWithGate state call streamId gateAddress).knownPublic =
      if gateAddress.isSome then setKnownPublic state.knownPublic streamId false
      else state.knownPublic := by
  cases gateAddress <;> rfl

theorem resumeCall_ofOneCall (state : State) (call : ℕ) (inFlight : CallInFlight)
    (answer : ChainAnswer) : OfOneCall state (resumeCall state call inFlight answer) call := by
  unfold resumeCall
  split
  · exact ⟨rfl, rfl, fun _ hne ↦ OrderedMap.get?_delete_of_ne _ hne⟩
  · split
    · exact ⟨rfl, rfl, fun _ hne ↦ OrderedMap.get?_set_of_ne _ _ hne⟩
    · exact continueWithGate_ofOneCall ..
  · exact continueWithGate_ofOneCall ..
  · exact ⟨rfl, rfl, fun _ hne ↦ OrderedMap.get?_delete_of_ne _ hne⟩
  · exact ⟨rfl, rfl, fun _ hne ↦ OrderedMap.get?_delete_of_ne _ hne⟩
  · exact endCall_ofOneCall state call

/-- A call that goes on writes to the set what its answer says. -/
theorem resumeCall_knownPublic (state : State) (call : ℕ) (inFlight : CallInFlight)
    (answer : ChainAnswer) :
    (resumeCall state call inFlight answer).knownPublic =
      knownPublicAfter state.knownPublic inFlight answer := by
  obtain ⟨streamId, awaiting, pending⟩ := inFlight
  cases awaiting with
  | metadata =>
    cases answer with
    | failed => rfl
    | streamNotFound => rfl
    | metadata metadata =>
      cases hgate : parseGateAddress metadata with
      | some address =>
        have hcontradicts : Contradicts ⟨streamId, .metadata, pending⟩ (.metadata metadata) :=
          Or.inl (by simp [gateAnswer, hgate])
        simp [resumeCall, knownPublicAfter, hgate, hcontradicts, continueWithGate_knownPublic]
      | none =>
        cases hlinked : linkedToAsk streamId metadata with
        | none => simp [resumeCall, knownPublicAfter, Contradicts, gateAnswer, subscribeAnswer,
            hgate, hlinked, continueWithGate_knownPublic]
        | some linked => simp [resumeCall, knownPublicAfter, Contradicts, gateAnswer,
            subscribeAnswer, hgate, hlinked]
    | info info => rfl
    | permission granted => rfl
  | linkedMetadata =>
    cases answer with
    | failed => rfl
    | streamNotFound => rfl
    | metadata metadata =>
      cases hgate : parseGateAddress metadata with
      | some address => simp [resumeCall, knownPublicAfter, Contradicts, gateAnswer, hgate,
          continueWithGate_knownPublic]
      | none => simp [resumeCall, knownPublicAfter, Contradicts, gateAnswer, subscribeAnswer,
          hgate, continueWithGate_knownPublic]
    | info info => rfl
    | permission granted => rfl
  | info address =>
    cases answer with
    | failed => rfl
    | info info => rfl
    | streamNotFound => rfl
    | metadata metadata => rfl
    | permission granted => rfl
  | permission =>
    cases answer with
    | failed => rfl
    | permission granted => cases granted <;> rfl
    | streamNotFound => rfl
    | metadata metadata => rfl
    | info info => rfl

/-! ### The invariant -/

/-- Contradictions stay pending while their calls stay in flight with their answers. -/
theorem ContradictionPending.mono {state after : State} {streamId : String}
    (hcalls : ∀ call inFlight, state.calls.get? call = some inFlight →
      inFlight.streamId = streamId → inFlight.answer ≠ none →
        after.calls.get? call = some inFlight)
    (hpending : ContradictionPending state streamId) : ContradictionPending after streamId := by
  obtain ⟨call, inFlight, answer, hcall, hstream, hanswer, hcontradicts⟩ := hpending
  refine ⟨call, inFlight, answer, hcalls call inFlight hcall hstream ?_, hstream, hanswer,
    hcontradicts⟩
  rw [hanswer]
  exact Option.some_ne_none answer

theorem Confirmed.of_eq {state after : State} {streamId : String}
    (hgate : after.lastGate = state.lastGate)
    (hsubscribe : after.lastSubscribe = state.lastSubscribe)
    (hconfirmed : Confirmed state streamId) : Confirmed after streamId := by
  unfold Confirmed
  rw [hgate, hsubscribe]
  exact hconfirmed

/-- A new call keeps the invariant. -/
theorem tracks_start_call {state : State} {call : ℕ} {inFlight : CallInFlight}
    (htracks : Tracks state) (hfree : ¬ state.calls.has call = true) :
    Tracks { state with calls := state.calls.set call inFlight } := by
  intro streamId hmem
  refine (htracks streamId hmem).imp id (ContradictionPending.mono ?_)
  intro other found hfound _ _
  have hne : other ≠ call := by
    rintro rfl
    exact hfree (by simp [OrderedMap.has, hfound])
  exact (OrderedMap.get?_set_of_ne _ _ hne).trans hfound

/-- An answer keeps the invariant: if it contradicts it is pending from now on, and otherwise it
leaves its stream confirmed. -/
theorem tracks_recordAnswer {state : State} {call : ℕ} {inFlight : CallInFlight}
    {answer : ChainAnswer} (htracks : Tracks state)
    (hcall : state.calls.get? call = some inFlight) (hunanswered : inFlight.answer = none) :
    Tracks (recordAnswer state call inFlight answer) := by
  intro streamId hmem
  have hpending : ContradictionPending state streamId →
      ContradictionPending (recordAnswer state call inFlight answer) streamId := by
    refine ContradictionPending.mono fun other found hfound _ hanswered ↦ ?_
    have hne : other ≠ call := by
      rintro rfl
      rw [hcall, Option.some.injEq] at hfound
      exact hanswered (hfound ▸ hunanswered)
    exact (OrderedMap.get?_set_of_ne _ _ hne).trans hfound
  by_cases hstream : streamId = inFlight.streamId
  · by_cases hcontradicts : Contradicts inFlight answer
    · exact Or.inr ⟨call, { inFlight with answer := some answer }, answer,
        OrderedMap.get?_set_self _ _ _, hstream.symm, rfl, hcontradicts⟩
    · refine (htracks streamId hmem).imp (fun hconfirmed ↦ ?_) hpending
      subst hstream
      simp only [Contradicts, not_or] at hcontradicts
      refine ⟨?_, ?_⟩
      · simp only [recordAnswer]
        split
        · rename_i said hsaid
          cases said with
          | noGate => exact OrderedMap.get?_set_self _ _ _
          | gate => exact absurd hsaid hcontradicts.1
          | streamNotFound => exact absurd hsaid hcontradicts.2.1
        · exact hconfirmed.1
      · simp only [recordAnswer]
        split
        · rename_i said hsaid
          cases said with
          | true => exact OrderedMap.get?_set_self _ _ _
          | false => exact absurd hsaid hcontradicts.2.2
        · exact hconfirmed.2
  · refine (htracks streamId hmem).imp (fun hconfirmed ↦ ⟨?_, ?_⟩) hpending
    · simp only [recordAnswer]
      split
      · rw [OrderedMap.get?_set_of_ne _ _ hstream]
        exact hconfirmed.1
      · exact hconfirmed.1
    · simp only [recordAnswer]
      split
      · rw [OrderedMap.get?_set_of_ne _ _ hstream]
        exact hconfirmed.2
      · exact hconfirmed.2

/-- Going on with an answer keeps the invariant: a contradicting one takes its stream off the set,
a public one is written under the condition, and any other one changes nothing.
Assumes: a public answer is right when it is written. -/
theorem tracks_resumeCall {state : State} {call : ℕ} {inFlight : CallInFlight}
    {answer : ChainAnswer} (htracks : Tracks state)
    (hcall : state.calls.get? call = some inFlight) (hanswer : inFlight.answer = some answer)
    (hright : subscribeAnswer inFlight answer = some true →
      Confirmed state inFlight.streamId ∨ ContradictionPending state inFlight.streamId) :
    Tracks (resumeCall state call inFlight answer) := by
  have hone := resumeCall_ofOneCall state call inFlight answer
  -- a contradiction about this stream that is pending in another call stays pending
  have hkeep : ∀ streamId, (streamId = inFlight.streamId → ¬ Contradicts inFlight answer) →
      Confirmed state streamId ∨ ContradictionPending state streamId →
      Confirmed (resumeCall state call inFlight answer) streamId ∨
        ContradictionPending (resumeCall state call inFlight answer) streamId := by
    intro streamId hother htracked
    refine htracked.imp (Confirmed.of_eq hone.lastGate hone.lastSubscribe) ?_
    rintro ⟨other, found, said, hfound, hstream, hsaid, hcontradicts⟩
    refine ⟨other, found, said, ?_, hstream, hsaid, hcontradicts⟩
    have hne : other ≠ call := by
      rintro rfl
      obtain rfl : inFlight = found := Option.some.inj (hcall.symm.trans hfound)
      obtain rfl : answer = said := Option.some.inj (hanswer.symm.trans hsaid)
      exact hother hstream.symm hcontradicts
    exact (hone.calls other hne).trans hfound
  intro streamId hmem
  rw [resumeCall_knownPublic, knownPublicAfter] at hmem
  split_ifs at hmem with hcontradicts hpublic
  · rcases mem_setKnownPublic.mp hmem with ⟨-, hfalse⟩ | ⟨hne, hbefore⟩
    · cases hfalse
    · exact hkeep streamId (fun heq ↦ absurd heq hne) (htracks streamId hbefore)
  · rcases mem_setKnownPublic.mp hmem with ⟨rfl, -⟩ | ⟨-, hbefore⟩
    · exact hkeep _ (fun _ ↦ hcontradicts) (hright hpublic)
    · exact hkeep streamId (fun _ ↦ hcontradicts) (htracks streamId hbefore)
  · exact hkeep streamId (fun _ ↦ hcontradicts) (htracks streamId hmem)

/-- Every step that is right when it writes keeps the invariant. -/
theorem step_tracks {state after : State} {event : Event} (htracks : Tracks state)
    (hright : RightWhenWritten state event) (hstep : step state event = some after) :
    Tracks after := by
  cases event with
  | beginGetGate call streamId =>
    simp only [step] at hstep
    split_ifs at hstep with hfree
    cases hstep
    unfold beginGetGate
    split_ifs
    · exact htracks
    · exact tracks_start_call htracks hfree
  | beginIsPublicSubscribe call streamId =>
    simp only [step] at hstep
    split_ifs at hstep with hfree
    cases hstep
    unfold beginIsPublicSubscribe
    split_ifs
    · exact htracks
    · exact tracks_start_call htracks hfree
  | answer call answer =>
    simp only [step] at hstep
    split at hstep
    · rename_i inFlight hcall
      split_ifs at hstep with hfits
      cases hstep
      exact tracks_recordAnswer htracks hcall hfits.1
    · cases hstep
  | resume call =>
    simp only [step] at hstep
    split at hstep
    · rename_i inFlight hcall
      obtain ⟨answer, hanswer, rfl⟩ := Option.map_eq_some_iff.mp hstep
      refine tracks_resumeCall htracks hcall hanswer fun hpublic ↦ hright inFlight.streamId ?_
      simp [writesPublic, hcall, hanswer, hpublic]
    · cases hstep
  | expireGate streamId =>
    cases hstep
    exact htracks
  | expireSubscribePublic streamId =>
    cases hstep
    exact htracks

theorem tracks_of_reachable {state : State}
    (hreachable : Transition.Reachable step RightWhenWritten Start state) : Tracks state :=
  hreachable.invariant (fun _ hstart streamId hmem ↦ Or.inl (hstart.2 streamId hmem))
    fun _ _ _ _ htracks hright hstep ↦ step_tracks htracks hright hstep

/-- In every run in which a public answer is written only when it is right, and whenever no call is
in flight, the streams last seen as public are those whose latest answers were no gate and public
`SUBSCRIBE`, and during an outage the guard passes on only reads of such streams.
Assumes: the state is reached by such a run and no call is in flight. -/
theorem knownPublic_confirmed {state : State}
    (hreachable : Transition.Reachable step RightWhenWritten Start state)
    (hquiet : state.calls.entries = []) :
    (∀ streamId, wasLastSeenPublic state streamId = true → Confirmed state streamId) ∧
      ∀ streamId partition lookups, ChainOutage lookups →
        openStreamSuffix.toList.isSuffixOf streamId.toList = false →
        signedReadGuard true streamId (some partition) (wasLastSeenPublic state streamId)
          lookups = .next → Confirmed state streamId := by
  have hconfirmed : ∀ streamId, wasLastSeenPublic state streamId = true →
      Confirmed state streamId := by
    intro streamId hpublic
    refine (tracks_of_reachable hreachable streamId (of_decide_eq_true hpublic)).resolve_right ?_
    rintro ⟨call, inFlight, answer, hcall, -⟩
    rw [OrderedMap.get?_eq_some_iff, hquiet] at hcall
    cases hcall
  exact ⟨hconfirmed, fun streamId partition lookups houtage hclosed hserved ↦
    hconfirmed streamId (lastSeenPublic_of_served hclosed houtage hserved)⟩

/-! ### Two answers written in the wrong order -/

/-- The object right after its creation. -/
def State.empty : State where
  gateCache := OrderedMap.empty
  subscribePublicCache := OrderedMap.empty
  knownPublic := OrderedSet.empty
  calls := OrderedMap.empty
  lastGate := OrderedMap.empty
  lastSubscribe := OrderedMap.empty

/-- A read of a stream without gate that is public. -/
def publicRead : List Event :=
  [.beginGetGate 0 "stream", .answer 0 (.metadata ⟨none, none⟩), .resume 0,
    .beginIsPublicSubscribe 1 "stream", .answer 1 (.permission true), .resume 1]

/-- Two calls ask about the stream; the chain answers the first that it is public and the second
that it is not, and the second goes on first. -/
def overtakenRead : List Event :=
  [.beginGetGate 0 "stream", .answer 0 (.metadata ⟨none, none⟩), .resume 0,
    .beginIsPublicSubscribe 1 "stream", .beginIsPublicSubscribe 2 "stream",
    .answer 1 (.permission true), .answer 2 (.permission false), .resume 2, .resume 1]

/-- A check of the condition that only looks at the latest answers. -/
def checkConfirmed (state : State) (event : Event) : Bool :=
  match writesPublic state event with
  | some streamId => decide (Confirmed state streamId)
  | none => true

theorem rightWhenWritten_of_checkConfirmed {state : State} {event : Event}
    (hcheck : checkConfirmed state event = true) : RightWhenWritten state event := by
  intro streamId hwrites
  rw [checkConfirmed, hwrites] at hcheck
  exact Or.inl (of_decide_eq_true hcheck)

/-- After the read of a public stream without gate the stream is known as public, and rightly. -/
theorem knownPublic_confirmed_publicRead : ∃ state,
    Transition.checkedRun step checkConfirmed State.empty publicRead = some state ∧
      wasLastSeenPublic state "stream" = true ∧ Confirmed state "stream" := by
  have hrun : (Transition.checkedRun step checkConfirmed State.empty publicRead).map
      (fun state ↦ (state.calls.entries, wasLastSeenPublic state "stream")) = some ([], true) := by
    decide
  obtain ⟨state, hstate, hfacts⟩ := Option.map_eq_some_iff.mp hrun
  obtain ⟨hquiet, hpublic⟩ := Prod.mk.inj hfacts
  have hstart : Start State.empty := ⟨rfl, fun _ hmem ↦ absurd hmem (OrderedSet.notMem_empty _)⟩
  have hreachable := Transition.Reachable.of_checkedRun publicRead
    (fun _ _ ↦ rightWhenWritten_of_checkConfirmed) (.start hstart) hstate
  exact ⟨state, hstate, hpublic, (knownPublic_confirmed hreachable hquiet).1 "stream" hpublic⟩

/-- After the overtaken read no call is in flight, the chain's latest answer is that the stream is
not public, and the stream is known as public; a read during an outage is then passed on. -/
theorem overtakenRead_not_confirmed : ∃ state, Start State.empty ∧
    Transition.run step State.empty overtakenRead = some state ∧ state.calls.entries = [] ∧
      wasLastSeenPublic state "stream" = true ∧
      state.lastSubscribe.get? "stream" = some false ∧ ¬ Confirmed state "stream" ∧
      signedReadGuard true "stream" (some 0) (wasLastSeenPublic state "stream")
        ⟨.failed, none, .error "", none, none, none⟩ = .next := by
  have hrun : (Transition.run step State.empty overtakenRead).map (fun state ↦
      (state.calls.entries, wasLastSeenPublic state "stream",
        state.lastSubscribe.get? "stream")) = some ([], true, some false) := by
    decide
  obtain ⟨state, hstate, hfacts⟩ := Option.map_eq_some_iff.mp hrun
  simp only [Prod.mk.injEq] at hfacts
  obtain ⟨hquiet, hpublic, hlast⟩ := hfacts
  refine ⟨state, ⟨rfl, fun _ hmem ↦ absurd hmem (OrderedSet.notMem_empty _)⟩, hstate, hquiet,
    hpublic, hlast, fun hconfirmed ↦ ?_, ?_⟩
  · have hcontra := hlast.symm.trans hconfirmed.2
    cases hcontra
  · rw [hpublic]
    decide

end PomboStorageNode.Storage.PomboGates
