import PomboStorageNode.ProtoRpc.ResultParts
import PomboStorageNode.Library.OrderedMap
import PomboStorageNode.Library.Transition

/-!
# Calls of a communicator

`RpcCommunicator.ts` registers the calls that wait for a response, hands the messages of all calls
to a listener, and settles the promises of a call when a response arrives, when the time is over,
when the message could not be sent, or when the communicator is stopped. A notification is not
registered. Behind its sending the communicator settles whatever is not registered, so it tells a
notification from a call that still waits by its map, and from one that is settled by its promises.

The events are the callbacks in the order in which they run: a fulfilled promise of the listener
runs the callback of `then`, a rejected one runs the callback of `catch` and later the one of
`then`.
-/

set_option autoImplicit false

namespace PomboStorageNode.ProtoRpc

open Library Library.Throwing

variable {Bytes Body Thrown : Type}

/-! ### The state -/

/-- `ProtoCallContext`. -/
structure ProtoCallContext where
  notification : Bool

/-- How far the sending of the message of a call has come: not begun, begun, failed with the
callback of `then` to come, or at its end. -/
inductive Sending
  | unsent
  | sending
  | caught
  | finished
  deriving DecidableEq

/-- A call: what it hands to the communicator, and how far the sending of its message has come. -/
structure Call (Bytes Body : Type) where
  callContext : ProtoCallContext
  deferredPromises : ResultParts Bytes Body
  sending : Sending

/-- How a call has ended, if it has. -/
def Call.settlement (call : Call Bytes Body) : Option (Settlement Body) :=
  call.deferredPromises.settlement

/-- A call ends in a way that depends on its parser, if it has not ended. -/
def Call.settle (settlementOf : (Bytes → Option Body) → Settlement Body)
    (call : Call Bytes Body) : Call Bytes Body :=
  { call with
    deferredPromises :=
      ⟨promisesOf (call.settlement.or (some (settlementOf call.deferredPromises.messageParser))),
        call.deferredPromises.messageParser⟩ }

/-- `OngoingRequest`, with the id of the call whose promises it has. -/
structure OngoingRequest where
  deferredPromises : String
  timeoutRef : Bool

/-- `RpcCommunicator`, with the listener of its transport, the timers that run, and all calls by
their request ids. -/
structure RpcCommunicator (Bytes Body : Type) where
  stopped : Bool
  ongoingRequests : OrderedMap String OngoingRequest
  outgoingMessageListener : Bool
  transportListens : Bool
  timers : OrderedSet String
  calls : OrderedMap String (Call Bytes Body)

namespace RpcCommunicator

/-- The constructor. -/
def create (Bytes Body : Type) : RpcCommunicator Bytes Body :=
  ⟨false, .empty, false, true, .empty, .empty⟩

/-- What a computation of the communicator may do. -/
abbrev Action (Thrown Bytes Body : Type) : Type → Type :=
  Throwing Thrown (RpcCommunicator Bytes Body)

/-! ### Requests -/

/-- The promises of a call become others. -/
def putPromises (requestId : String) (parts : ResultParts Bytes Body)
    (state : RpcCommunicator Bytes Body) : RpcCommunicator Bytes Body :=
  { state with
    calls := state.calls.adjust requestId fun call ↦ { call with deferredPromises := parts } }

/-- A computation on the promises of a call. -/
def onPromises (requestId : String) (action : ResultParts.Action Thrown Bytes Body Unit) :
    Action Thrown Bytes Body Unit := do
  match (← get).calls.get? requestId with
  | none => pure ()
  | some call =>
    modify (putPromises requestId (exec action call.deferredPromises).2)
    match (exec action call.deferredPromises).1 with
    | .ok _ => pure ()
    | .error thrown => throw thrown

/-- A timer is cleared. -/
def clearTimer (requestId : String) (state : RpcCommunicator Bytes Body) :
    RpcCommunicator Bytes Body :=
  { state with timers := state.timers.delete requestId }

/-- A request is deleted. -/
def deleteRequest (requestId : String) (state : RpcCommunicator Bytes Body) :
    RpcCommunicator Bytes Body :=
  { state with ongoingRequests := state.ongoingRequests.delete requestId }

section Requests

variable (settledAgain : Option Thrown)

/-- The begin of `resolveRequest`, `resolveNotification` and `rejectRequest`. -/
def clearTimeout (request : OngoingRequest) : Action Thrown Bytes Body Unit :=
  if request.timeoutRef then modify (clearTimer request.deferredPromises) else pure ()

/-- `resolveRequest`. -/
def resolveRequest (unparsable : Thrown) (request : OngoingRequest)
    (response : RpcMessage Bytes) : Action Thrown Bytes Body Unit := do
  clearTimeout request
  onPromises request.deferredPromises
    (ResultParts.resolveDeferredPromises settledAgain unparsable response)

/-- `resolveNotification`. -/
def resolveNotification (request : OngoingRequest) : Action Thrown Bytes Body Unit := do
  clearTimeout request
  onPromises request.deferredPromises (ResultParts.resolveNotification settledAgain)

/-- `rejectRequest`. -/
def rejectRequest (request : OngoingRequest) (error : RpcError) (code : StatusCode) :
    Action Thrown Bytes Body Unit := do
  clearTimeout request
  onPromises request.deferredPromises (ResultParts.rejectDeferredPromises settledAgain error code)

/-- The callback of a timer. -/
def onTimeout (requestId : String) : Action Thrown Bytes Body Unit := do
  modify (clearTimer requestId)
  onPromises requestId (ResultParts.rejectDeferredPromises settledAgain
    (.rpcTimeout "Rpc request timed out") .deadlineExceeded)
  modify (deleteRequest requestId)

/-! ### The communicator -/

/-- A request is registered, with its timer. -/
def registered (requestId : String) (state : RpcCommunicator Bytes Body) :
    RpcCommunicator Bytes Body :=
  { state with
    timers := state.timers.add requestId
    ongoingRequests := state.ongoingRequests.set requestId ⟨requestId, true⟩ }

/-- `registerRequest`. -/
def registerRequest (requestId : String) : Action Thrown Bytes Body Unit := do
  if (← get).stopped then pure () else modify (registered requestId)

/-- `resolveOngoingRequest`. -/
def resolveOngoingRequest (unparsable : Thrown) (response : RpcMessage Bytes) :
    Action Thrown Bytes Body Unit := do
  let state ← get
  if state.stopped then pure ()
  else
    match state.ongoingRequests.get? response.requestId with
    | none => pure ()
    | some ongoingRequest =>
      resolveRequest settledAgain unparsable ongoingRequest response
      modify (deleteRequest response.requestId)

/-- The error of a response. -/
def errorOf (response : RpcMessage Bytes) : RpcError :=
  match response.errorType with
  | some .serverTimeout => .rpcTimeout "Server timed out on request"
  | some .unknownRpcMethod =>
    .unknownRpcMethod ("Server does not implement method " ++
      response.header.method.getD "undefined")
  | some .serverError =>
    .rpcServerError response.errorMessage response.errorClassName response.errorCode
  | _ => .rpcRequest "Unknown RPC Error"

/-- `rejectOngoingRequest`. -/
def rejectOngoingRequest (response : RpcMessage Bytes) : Action Thrown Bytes Body Unit := do
  let state ← get
  if state.stopped then pure ()
  else
    match state.ongoingRequests.get? response.requestId with
    | none => pure ()
    | some ongoingRequest =>
      rejectRequest settledAgain ongoingRequest (errorOf response) .serverError
      modify (deleteRequest response.requestId)

/-- `handleClientError`. -/
def handleClientError (requestId : String) (error : RpcError) :
    Action Thrown Bytes Body Unit := do
  let state ← get
  if state.stopped then pure ()
  else
    match state.ongoingRequests.get? requestId with
    | none => pure ()
    | some ongoingRequest =>
      rejectRequest settledAgain ongoingRequest error .serverError
      modify (deleteRequest requestId)

/-- Several requests are rejected. -/
def rejectRequests (error : RpcError) (code : StatusCode) :
    List OngoingRequest → Action Thrown Bytes Body Unit
  | [] => pure ()
  | request :: requests => do
    rejectRequest settledAgain request error code
    rejectRequests error code requests

/-- `stop`. -/
def stop : Action Thrown Bytes Body Unit := do
  modify fun state ↦ { state with stopped := true }
  let state ← get
  rejectRequests settledAgain (.error "stopped") .stopped state.ongoingRequests.values
  modify fun state ↦ { state with ongoingRequests := .empty, transportListens := false }

/-- How far the sending of the message of a call has come is noted. -/
def setSending (requestId : String) (stage : Sending) (state : RpcCommunicator Bytes Body) :
    RpcCommunicator Bytes Body :=
  { state with calls := state.calls.adjust requestId fun call ↦ { call with sending := stage } }

/-- The callback of `then`, which also is the branch without a listener. -/
def onSent (requestId : String) : Action Thrown Bytes Body Unit := do
  if (← get).ongoingRequests.has requestId then pure ()
  else resolveNotification settledAgain ⟨requestId, false⟩

/-- The callback of `catch`. -/
def onSendingFailed (requestId : String) (clientSideException : RpcError) :
    Action Thrown Bytes Body Unit := do
  if (← get).ongoingRequests.has requestId then
    handleClientError settledAgain requestId clientSideException
  else rejectRequest settledAgain ⟨requestId, false⟩ clientSideException .serverError

/-- `onOutgoingMessage` for the message of a call. -/
def onOutgoingMessage (requestId : String) (callContext : ProtoCallContext) :
    Action Thrown Bytes Body Unit := do
  if (← get).stopped then
    rejectRequest settledAgain ⟨requestId, false⟩ (.error "stopped") .stopped
  else
    if !callContext.notification then registerRequest requestId
    if (← get).outgoingMessageListener then modify (setSending requestId .sending)
    else onSent settledAgain requestId

/-- Whether a key of a header has a text that is not empty. -/
def truthy (value : Option String) : Bool := value.any (· ≠ "")

/-- `onIncomingMessage`. The other messages concern the server, which only sends responses. -/
def onIncomingMessage (unparsable : Thrown) (rpcMessage : RpcMessage Bytes) :
    Action Thrown Bytes Body Unit := do
  if truthy rpcMessage.header.response && (← get).ongoingRequests.has rpcMessage.requestId then
    if rpcMessage.errorType.isSome then rejectOngoingRequest settledAgain rpcMessage
    else resolveOngoingRequest settledAgain unparsable rpcMessage
  else pure ()

/-- `handleIncomingMessage`. -/
def handleIncomingMessage (unparsable : Thrown) (message : RpcMessage Bytes) :
    Action Thrown Bytes Body Unit := do
  if (← get).stopped then pure () else onIncomingMessage settledAgain unparsable message

/-! ### Events -/

/-- What happens to a communicator. -/
inductive Event (Bytes Body : Type)
  | rpcRequest (requestId : String) (callContext : ProtoCallContext)
      (messageParser : Bytes → Option Body)
  | sent (requestId : String)
  | sendingFailed (requestId : String) (exception : String)
  | sendingFailureHandled (requestId : String)
  | message (message : RpcMessage Bytes)
  | timeout (requestId : String)
  | clientError (requestId : String) (exception : String)
  | setOutgoingMessageListener
  | stop

/-- Whether an event can happen: the ids of the calls are distinct, and callbacks run once. -/
def Enabled (state : RpcCommunicator Bytes Body) : Event Bytes Body → Bool
  | .rpcRequest requestId _ _ => !state.calls.has requestId
  | .sent requestId | .sendingFailed requestId _ =>
    (state.calls.get? requestId).any (·.sending = .sending)
  | .sendingFailureHandled requestId => (state.calls.get? requestId).any (·.sending = .caught)
  | .timeout requestId => requestId ∈ state.timers
  | _ => true

/-- A new call, with pending promises. -/
def withCall (requestId : String) (callContext : ProtoCallContext)
    (messageParser : Bytes → Option Body) (state : RpcCommunicator Bytes Body) :
    RpcCommunicator Bytes Body :=
  { state with
    calls := state.calls.set requestId ⟨callContext, ⟨.allPending, messageParser⟩, .unsent⟩ }

/-- What is done at an event. -/
def perform (unparsable : Thrown) : Event Bytes Body → Action Thrown Bytes Body Unit
  | .rpcRequest requestId callContext messageParser => do
    modify (withCall requestId callContext messageParser)
    if (← get).transportListens then onOutgoingMessage settledAgain requestId callContext
    else pure ()
  | .sent requestId | .sendingFailureHandled requestId => do
    modify (setSending requestId .finished)
    onSent settledAgain requestId
  | .sendingFailed requestId exception => do
    modify (setSending requestId .caught)
    onSendingFailed settledAgain requestId (.clientSideException exception)
  | .message message => handleIncomingMessage settledAgain unparsable message
  | .timeout requestId => onTimeout settledAgain requestId
  | .clientError requestId exception =>
    handleClientError settledAgain requestId (.clientSideException exception)
  | .setOutgoingMessageListener =>
    modify fun state ↦ { state with outgoingMessageListener := true }
  | .stop => stop settledAgain

/-- One event. -/
def step (unparsable : Thrown) (state : RpcCommunicator Bytes Body) (event : Event Bytes Body) :
    Option (RpcCommunicator Bytes Body) :=
  if Enabled state event then some (exec (perform settledAgain unparsable event) state).2
  else none

end Requests

/-! ### What the computations do -/

/-- A call with an id ends, if it has not ended. -/
def settle (requestId : String) (settlementOf : (Bytes → Option Body) → Settlement Body)
    (state : RpcCommunicator Bytes Body) : RpcCommunicator Bytes Body :=
  { state with calls := state.calls.adjust requestId (Call.settle settlementOf) }

/-- A request ends, and its timer. -/
def finish (requestId : String) (settlementOf : (Bytes → Option Body) → Settlement Body)
    (state : RpcCommunicator Bytes Body) : RpcCommunicator Bytes Body :=
  deleteRequest requestId (clearTimer requestId (settle requestId settlementOf state))

/-- The promises of each call are pending or settled together. -/
def Together (state : RpcCommunicator Bytes Body) : Prop :=
  ∀ requestId call, state.calls.get? requestId = some call → call.deferredPromises.Together

/-- The state of a communicator is as its computations expect it: the promises of a call are settled
together, the timers that run are those of the requests, and a stopped communicator has no
requests. -/
structure Sound (state : RpcCommunicator Bytes Body) : Prop where
  together : state.Together
  requests : ∀ requestId request, state.ongoingRequests.get? requestId = some request →
    request = ⟨requestId, true⟩
  timers : ∀ requestId, requestId ∈ state.timers ↔ state.ongoingRequests.has requestId = true
  called : ∀ requestId, state.ongoingRequests.has requestId = true →
    state.calls.has requestId = true
  stopped : state.stopped = true → ∀ requestId, state.ongoingRequests.has requestId = false
  listens : state.transportListens = !state.stopped

section Effects

variable (settledAgain : Option Thrown) {state : RpcCommunicator Bytes Body}

theorem exec_onPromises {action : ResultParts.Action Thrown Bytes Body Unit}
    {settlementOf : (Bytes → Option Body) → Settlement Body}
    (hsettles : ∀ messageParser, ResultParts.Settles action messageParser
      (settlementOf messageParser))
    (htogether : state.Together) (requestId : String) :
    exec (onPromises requestId action) state = (.ok (), state.settle requestId settlementOf) := by
  rw [onPromises, exec_bind, exec_get]
  dsimp only
  cases hget : state.calls.get? requestId with
  | none =>
    have hsame : state.calls.adjust requestId (Call.settle settlementOf) = state.calls := by
      rw [OrderedMap.adjust, hget]
    rw [settle, hsame]
    rfl
  | some call =>
    have hexec : exec action call.deferredPromises =
        (.ok (), (call.settle settlementOf).deferredPromises) := by
      have hsettled := hsettles call.deferredPromises.messageParser call.settlement
      rwa [Call.settlement, ← htogether requestId call hget] at hsettled
    have hput : state.putPromises requestId (call.settle settlementOf).deferredPromises =
        state.settle requestId settlementOf := by
      rw [putPromises, settle, OrderedMap.adjust, OrderedMap.adjust, hget]
      rfl
    rw [exec_bind, exec_modify, hexec]
    dsimp only
    rw [hput]
    rfl

/-- Rejecting a request that is not registered settles its call. -/
theorem Sound.exec_reject (hsound : Sound state) (requestId : String) (error : RpcError)
    (code : StatusCode) :
    exec (rejectRequest settledAgain ⟨requestId, false⟩ error code) state =
      (.ok (), state.settle requestId fun _ ↦ .rejected error code) := by
  rw [rejectRequest, exec_bind]
  exact exec_onPromises (fun parser ↦
    ResultParts.settles_rejectDeferredPromises settledAgain parser error code)
    hsound.together requestId

theorem Sound.exec_onSent (hsound : Sound state) (requestId : String) :
    exec (onSent settledAgain requestId) state =
      (.ok (), if state.ongoingRequests.has requestId then state
        else state.settle requestId fun _ ↦ .resolved .emptyObject) := by
  rw [onSent, exec_bind, exec_get]
  dsimp only
  split_ifs with hhas
  · rfl
  · rw [resolveNotification, exec_bind]
    exact exec_onPromises (ResultParts.settles_resolveNotification settledAgain)
      hsound.together requestId

/-- The lookup of a request. -/
theorem Sound.get?_eq (hsound : Sound state) {requestId : String}
    (hhas : state.ongoingRequests.has requestId = true) :
    state.ongoingRequests.get? requestId = some ⟨requestId, true⟩ := by
  obtain ⟨request, hrequest⟩ := Option.isSome_iff_exists.mp hhas
  rw [hrequest, hsound.requests requestId request hrequest]

/-- A registered request finishes by a computation on its promises, behind which it is deleted. -/
theorem Sound.exec_finish (hsound : Sound state) {requestId : String}
    {action : ResultParts.Action Thrown Bytes Body Unit}
    {settlementOf : (Bytes → Option Body) → Settlement Body}
    (hsettles : ∀ messageParser, ResultParts.Settles action messageParser
      (settlementOf messageParser)) :
    exec (do
      clearTimeout ⟨requestId, true⟩
      onPromises requestId action
      modify (deleteRequest requestId)) state = (.ok (), state.finish requestId settlementOf) := by
  have hclear : exec (clearTimeout ⟨requestId, true⟩ : Action Thrown Bytes Body Unit) state =
      (.ok (), state.clearTimer requestId) := rfl
  rw [exec_bind, hclear]
  dsimp only
  rw [exec_bind, @exec_onPromises _ _ _ (state.clearTimer requestId) _ _ hsettles hsound.together]
  rfl

theorem Sound.exec_handleClientError (hsound : Sound state) (requestId : String)
    (error : RpcError) :
    exec (handleClientError settledAgain requestId error) state =
      (.ok (), if state.ongoingRequests.has requestId then
        state.finish requestId fun _ ↦ .rejected error .serverError else state) := by
  rw [handleClientError, exec_bind, exec_get]
  dsimp only
  split_ifs with hstopped hhas hhas
  · exact absurd hhas (by rw [hsound.stopped hstopped]; exact Bool.false_ne_true)
  · rfl
  · rw [hsound.get?_eq hhas]
    exact hsound.exec_finish fun parser ↦
      ResultParts.settles_rejectDeferredPromises settledAgain parser error .serverError
  · rw [OrderedMap.has, Option.isSome_iff_ne_none, not_not] at hhas
    rw [hhas]
    rfl

/-- How a call ends by a response. -/
def settlementOf (response : RpcMessage Bytes) (messageParser : Bytes → Option Body) :
    Settlement Body :=
  if response.errorType.isSome then .rejected (errorOf response) .serverError
  else .ofResponse messageParser response

theorem Sound.exec_handleIncomingMessage (hsound : Sound state) (unparsable : Thrown)
    (message : RpcMessage Bytes) :
    exec (handleIncomingMessage settledAgain unparsable message) state =
      (.ok (), if truthy message.header.response && state.ongoingRequests.has message.requestId
        then state.finish message.requestId (settlementOf message) else state) := by
  rw [handleIncomingMessage, exec_bind, exec_get]
  dsimp only
  by_cases hstopped : state.stopped = true
  · rw [if_pos hstopped, hsound.stopped hstopped, Bool.and_false]
    rfl
  · rw [if_neg hstopped, onIncomingMessage, exec_bind, exec_get]
    dsimp only
    by_cases hresponse : (truthy message.header.response &&
        state.ongoingRequests.has message.requestId) = true
    · have hget := hsound.get?_eq (Bool.and_eq_true_iff.mp hresponse).2
      rw [if_pos hresponse, if_pos hresponse]
      by_cases herror : message.errorType.isSome = true
      · have hsettlement : (settlementOf message : (Bytes → Option Body) → Settlement Body) =
            fun _ ↦ .rejected (errorOf message) .serverError := by
          funext parser
          rw [settlementOf, if_pos herror]
        rw [if_pos herror, rejectOngoingRequest, exec_bind, exec_get]
        dsimp only
        rw [if_neg hstopped, hget, hsettlement]
        exact hsound.exec_finish fun parser ↦
          ResultParts.settles_rejectDeferredPromises settledAgain parser _ .serverError
      · have hsettlement : (settlementOf message : (Bytes → Option Body) → Settlement Body) =
            fun parser ↦ .ofResponse parser message := by
          funext parser
          rw [settlementOf, if_neg herror]
        rw [if_neg herror, resolveOngoingRequest, exec_bind, exec_get]
        dsimp only
        rw [if_neg hstopped, hget, hsettlement]
        exact hsound.exec_finish fun parser ↦
          ResultParts.settles_resolveDeferredPromises settledAgain parser unparsable message
    · rw [if_neg hresponse, if_neg hresponse]
      rfl

theorem Sound.exec_onTimeout (hsound : Sound state) (requestId : String) :
    exec (onTimeout settledAgain requestId) state =
      (.ok (), state.finish requestId fun _ ↦
        .rejected (.rpcTimeout "Rpc request timed out") .deadlineExceeded) :=
  hsound.exec_finish fun parser ↦
    ResultParts.settles_rejectDeferredPromises settledAgain parser _ .deadlineExceeded

/-- The state behind the rejection of several requests. -/
def rejected (error : RpcError) (code : StatusCode) (requests : List OngoingRequest)
    (state : RpcCommunicator Bytes Body) : RpcCommunicator Bytes Body :=
  requests.foldl (fun state request ↦
    (clearTimer request.deferredPromises state).settle request.deferredPromises
      fun _ ↦ .rejected error code) state

theorem Together.settle (htogether : state.Together) (requestId : String)
    (settlementOf : (Bytes → Option Body) → Settlement Body) :
    (state.settle requestId settlementOf).Together := by
  intro other call hget
  by_cases heq : other = requestId
  · subst heq
    rw [RpcCommunicator.settle, OrderedMap.get?_adjust_self] at hget
    obtain ⟨before, -, rfl⟩ := Option.map_eq_some_iff.mp hget
    exact together_promisesOf _
  · rw [RpcCommunicator.settle, OrderedMap.get?_adjust_of_ne _ _ heq] at hget
    exact htogether other call hget

theorem exec_rejectRequests (error : RpcError) (code : StatusCode)
    {requests : List OngoingRequest} (hrequests : ∀ request ∈ requests, request.timeoutRef = true)
    (htogether : state.Together) :
    exec (rejectRequests settledAgain error code requests) state =
      (.ok (), state.rejected error code requests) := by
  induction requests generalizing state with
  | nil => rfl
  | cons request requests ih =>
    have hclear : exec (clearTimeout request : Action Thrown Bytes Body Unit) state =
        (.ok (), clearTimer request.deferredPromises state) := by
      rw [clearTimeout, if_pos (hrequests request List.mem_cons_self)]
      rfl
    have hreject : exec (rejectRequest settledAgain request error code) state =
        (.ok (), (clearTimer request.deferredPromises state).settle request.deferredPromises
          fun _ ↦ .rejected error code) := by
      have hcleared : (clearTimer request.deferredPromises state).Together := htogether
      rw [rejectRequest, exec_bind, hclear]
      exact exec_onPromises (fun parser ↦
        ResultParts.settles_rejectDeferredPromises settledAgain parser error code)
        hcleared request.deferredPromises
    rw [rejectRequests, exec_bind, hreject]
    exact ih (fun other hother ↦ hrequests other (List.mem_cons_of_mem _ hother))
      (htogether.settle _ _)

/-- The state behind `stop`. -/
def afterStop (state : RpcCommunicator Bytes Body) : RpcCommunicator Bytes Body :=
  { ({ state with stopped := true }).rejected (.error "stopped") .stopped
      state.ongoingRequests.values with
    ongoingRequests := .empty
    transportListens := false }

theorem Sound.exec_stop (hsound : Sound state) :
    exec (stop settledAgain) state = (.ok (), state.afterStop) := by
  have hrequests : ∀ request ∈ state.ongoingRequests.values, request.timeoutRef = true := by
    intro request hrequest
    obtain ⟨⟨requestId, _⟩, hmem, rfl⟩ := List.mem_map.mp hrequest
    rw [hsound.requests requestId _ (OrderedMap.get?_eq_some_iff.mpr hmem)]
  have hstopped : ({ state with stopped := true } : RpcCommunicator Bytes Body).Together :=
    hsound.together
  rw [stop, exec_bind, exec_modify]
  dsimp only
  rw [exec_bind, exec_get]
  dsimp only
  rw [exec_bind, exec_rejectRequests settledAgain _ _ hrequests hstopped]
  rfl

/-- The state behind an event. -/
def next (state : RpcCommunicator Bytes Body) :
    Event Bytes Body → RpcCommunicator Bytes Body
  | .rpcRequest requestId callContext messageParser =>
    let added := state.withCall requestId callContext messageParser
    if state.stopped then added
    else
      let added := if callContext.notification then added else added.registered requestId
      if state.outgoingMessageListener then added.setSending requestId .sending
      else if added.ongoingRequests.has requestId then added
      else added.settle requestId fun _ ↦ .resolved .emptyObject
  | .sent requestId | .sendingFailureHandled requestId =>
    let sent := state.setSending requestId .finished
    if state.ongoingRequests.has requestId then sent
    else sent.settle requestId fun _ ↦ .resolved .emptyObject
  | .sendingFailed requestId exception =>
    let caught := state.setSending requestId .caught
    if state.ongoingRequests.has requestId then
      caught.finish requestId fun _ ↦ .rejected (.clientSideException exception) .serverError
    else caught.settle requestId fun _ ↦ .rejected (.clientSideException exception) .serverError
  | .message message =>
    if truthy message.header.response && state.ongoingRequests.has message.requestId then
      state.finish message.requestId (settlementOf message)
    else state
  | .timeout requestId => state.finish requestId fun _ ↦
      .rejected (.rpcTimeout "Rpc request timed out") .deadlineExceeded
  | .clientError requestId exception =>
    if state.ongoingRequests.has requestId then
      state.finish requestId fun _ ↦ .rejected (.clientSideException exception) .serverError
    else state
  | .setOutgoingMessageListener => { state with outgoingMessageListener := true }
  | .stop => state.afterStop

end Effects

/-! ### Every event keeps the state sound -/

section Sound

variable {state : RpcCommunicator Bytes Body}

theorem Sound.settle (hsound : Sound state) (requestId : String)
    (settlementOf : (Bytes → Option Body) → Settlement Body) :
    Sound (state.settle requestId settlementOf) where
  together := hsound.together.settle requestId settlementOf
  requests := hsound.requests
  timers := hsound.timers
  called other hhas := (OrderedMap.has_adjust _ _ _ _).trans (hsound.called other hhas)
  stopped := hsound.stopped
  listens := hsound.listens

theorem Sound.setSending (hsound : Sound state) (requestId : String) (stage : Sending) :
    Sound (state.setSending requestId stage) where
  together other call hget := by
    by_cases heq : other = requestId
    · subst heq
      rw [RpcCommunicator.setSending, OrderedMap.get?_adjust_self] at hget
      obtain ⟨before, hbefore, rfl⟩ := Option.map_eq_some_iff.mp hget
      exact hsound.together other before hbefore
    · rw [RpcCommunicator.setSending, OrderedMap.get?_adjust_of_ne _ _ heq] at hget
      exact hsound.together other call hget
  requests := hsound.requests
  timers := hsound.timers
  called other hhas := (OrderedMap.has_adjust _ _ _ _).trans (hsound.called other hhas)
  stopped := hsound.stopped
  listens := hsound.listens

theorem Sound.finish (hsound : Sound state) (requestId : String)
    (settlementOf : (Bytes → Option Body) → Settlement Body) :
    Sound (state.finish requestId settlementOf) where
  together := hsound.together.settle requestId settlementOf
  requests other request hget := by
    have hne : other ≠ requestId := by
      rintro rfl
      have hnone := hget.symm.trans (OrderedMap.get?_delete_self state.ongoingRequests other)
      exact Option.some_ne_none _ hnone
    have hsame := OrderedMap.get?_delete_of_ne state.ongoingRequests hne
    exact hsound.requests other request (hsame.symm.trans hget)
  timers other :=
    OrderedSet.mem_delete.trans
      ((and_congr_left fun _ ↦ hsound.timers other).trans OrderedMap.has_delete.symm)
  called other hhas := (OrderedMap.has_adjust _ _ _ _).trans
    (hsound.called other (OrderedMap.has_delete.mp hhas).1)
  stopped hstopped other := by
    have hfalse := hsound.stopped hstopped other
    by_contra htrue
    rw [Bool.not_eq_false] at htrue
    exact absurd (OrderedMap.has_delete.mp htrue).1 (hfalse ▸ Bool.false_ne_true)
  listens := hsound.listens

theorem Sound.withCall (hsound : Sound state) (requestId : String)
    (callContext : ProtoCallContext) (messageParser : Bytes → Option Body) :
    Sound (state.withCall requestId callContext messageParser) where
  together other call hget := by
    by_cases heq : other = requestId
    · subst heq
      rw [RpcCommunicator.withCall, OrderedMap.get?_set_self, Option.some.injEq] at hget
      subst hget
      exact together_promisesOf none
    · rw [RpcCommunicator.withCall, OrderedMap.get?_set_of_ne _ _ heq] at hget
      exact hsound.together other call hget
  requests := hsound.requests
  timers := hsound.timers
  called other hhas := OrderedMap.has_set.mpr (Or.inr (hsound.called other hhas))
  stopped := hsound.stopped
  listens := hsound.listens

theorem Sound.registered (hsound : Sound state) {requestId : String}
    (hcall : state.calls.has requestId = true) (hstopped : state.stopped = false) :
    Sound (state.registered requestId) where
  together := hsound.together
  requests other request hget := by
    by_cases heq : other = requestId
    · subst heq
      rw [RpcCommunicator.registered, OrderedMap.get?_set_self, Option.some.injEq] at hget
      exact hget.symm
    · rw [RpcCommunicator.registered, OrderedMap.get?_set_of_ne _ _ heq] at hget
      exact hsound.requests other request hget
  timers other :=
    OrderedSet.mem_add.trans
      ((or_congr_right (hsound.timers other)).trans OrderedMap.has_set.symm)
  called other hhas := by
    rcases OrderedMap.has_set.mp hhas with rfl | hhas
    · exact hcall
    · exact hsound.called other hhas
  stopped htrue := absurd (htrue.symm.trans hstopped) Bool.true_eq_false.mp
  listens := hsound.listens

/-- What the rejection of several requests leaves alone. -/
theorem rejected_frame (error : RpcError) (code : StatusCode) (requests : List OngoingRequest)
    (state : RpcCommunicator Bytes Body) :
    (state.rejected error code requests).stopped = state.stopped ∧
      (state.rejected error code requests).outgoingMessageListener =
        state.outgoingMessageListener ∧
      ∀ requestId, (state.rejected error code requests).calls.has requestId =
        state.calls.has requestId := by
  induction requests generalizing state with
  | nil => exact ⟨rfl, rfl, fun _ ↦ rfl⟩
  | cons request requests ih =>
    obtain ⟨hstopped, hlistener, hcalls⟩ :=
      ih ((clearTimer request.deferredPromises state).settle request.deferredPromises
        fun _ ↦ .rejected error code)
    exact ⟨hstopped, hlistener, fun requestId ↦
      (hcalls requestId).trans (OrderedMap.has_adjust _ _ _ _)⟩

theorem mem_timers_rejected {error : RpcError} {code : StatusCode}
    {requests : List OngoingRequest} {requestId : String} :
    requestId ∈ (state.rejected error code requests).timers ↔
      requestId ∈ state.timers ∧ requestId ∉ requests.map (·.deferredPromises) := by
  induction requests generalizing state with
  | nil => exact (and_iff_left List.not_mem_nil).symm
  | cons request requests ih =>
    change requestId ∈ (((clearTimer request.deferredPromises state).settle
      request.deferredPromises fun _ ↦ .rejected error code).rejected error code
        requests).timers ↔ _
    rw [ih, List.map_cons, List.mem_cons, not_or, ← and_assoc]
    exact and_congr_left fun _ ↦ OrderedSet.mem_delete

theorem together_rejected (htogether : state.Together) (error : RpcError) (code : StatusCode)
    (requests : List OngoingRequest) : (state.rejected error code requests).Together := by
  induction requests generalizing state with
  | nil => exact htogether
  | cons request requests ih =>
    have hcleared : (clearTimer request.deferredPromises state).Together := htogether
    exact ih (hcleared.settle _ _)

/-- The calls that are rejected are settled, and the others are not. -/
theorem calls_rejected (error : RpcError) (code : StatusCode) {requests : List OngoingRequest}
    (hnodup : (requests.map (·.deferredPromises)).Nodup) (requestId : String) :
    (state.rejected error code requests).calls.get? requestId =
      if requestId ∈ requests.map (·.deferredPromises) then
        (state.calls.get? requestId).map (Call.settle fun _ ↦ .rejected error code)
      else state.calls.get? requestId := by
  induction requests generalizing state with
  | nil => rfl
  | cons request requests ih =>
    rw [List.map_cons, List.nodup_cons] at hnodup
    change (((clearTimer request.deferredPromises state).settle request.deferredPromises
      fun _ ↦ .rejected error code).rejected error code requests).calls.get? requestId = _
    rw [ih hnodup.2, List.map_cons]
    by_cases heq : requestId = request.deferredPromises
    · subst heq
      rw [if_neg hnodup.1, if_pos List.mem_cons_self]
      exact OrderedMap.get?_adjust_self _ _ _
    · have hmem : requestId ∈ request.deferredPromises :: requests.map (·.deferredPromises) ↔
          requestId ∈ requests.map (·.deferredPromises) := by
        rw [List.mem_cons, or_iff_right heq]
      have hget : ((clearTimer request.deferredPromises state).settle request.deferredPromises
          fun _ ↦ .rejected error code).calls.get? requestId = state.calls.get? requestId :=
        OrderedMap.get?_adjust_of_ne _ _ heq
      rw [hget]
      exact if_congr hmem.symm rfl rfl

/-- The ids of the requests are the keys of the map. -/
theorem Sound.map_values (hsound : Sound state) :
    state.ongoingRequests.values.map (·.deferredPromises) = state.ongoingRequests.keys := by
  rw [OrderedMap.values, OrderedMap.keys, List.map_map]
  refine List.map_congr_left fun entry hentry ↦ ?_
  have hrequest := hsound.requests entry.1 entry.2 (OrderedMap.get?_eq_some_iff.mpr hentry)
  exact congrArg OngoingRequest.deferredPromises hrequest

theorem mem_keys_iff_has {requestId : String} : requestId ∈ state.ongoingRequests.keys ↔
    state.ongoingRequests.has requestId = true :=
  OrderedMap.mem_keys_iff.trans Option.isSome_iff_exists.symm

/-- A stopped communicator has rejected its requests. -/
theorem Sound.calls_afterStop (hsound : Sound state) (requestId : String) :
    state.afterStop.calls.get? requestId =
      if state.ongoingRequests.has requestId then
        (state.calls.get? requestId).map
          (Call.settle fun _ ↦ .rejected (.error "stopped") .stopped)
      else state.calls.get? requestId := by
  have hnodup : (state.ongoingRequests.values.map (·.deferredPromises)).Nodup :=
    hsound.map_values ▸ state.ongoingRequests.nodup_keys
  refine (calls_rejected (.error "stopped") .stopped hnodup requestId).trans ?_
  rw [hsound.map_values]
  exact if_congr mem_keys_iff_has rfl rfl

theorem Sound.afterStop (hsound : Sound state) : Sound state.afterStop where
  together := by
    have htogether : ({ state with stopped := true } : RpcCommunicator Bytes Body).Together :=
      hsound.together
    exact together_rejected htogether _ _ _
  requests requestId request hget := absurd hget nofun
  timers requestId := by
    refine mem_timers_rejected.trans ?_
    rw [hsound.map_values, mem_keys_iff_has]
    refine iff_of_false (fun hmem ↦ hmem.2 ((hsound.timers requestId).mp hmem.1)) ?_
    exact Bool.false_ne_true
  called requestId hhas := absurd hhas Bool.false_ne_true
  stopped _ _ := rfl
  listens := by
    have hframe := rejected_frame (.error "stopped") .stopped state.ongoingRequests.values
      { state with stopped := true }
    have hstopped : state.afterStop.stopped = true := hframe.1
    rw [hstopped]
    rfl

variable (settledAgain : Option Thrown) (unparsable : Thrown)

/-- Handing over the message of a new call. -/
theorem Sound.exec_onOutgoingMessage (hsound : Sound state) {requestId : String}
    (hcall : state.calls.has requestId = true) (hstopped : state.stopped = false)
    (callContext : ProtoCallContext) :
    exec (onOutgoingMessage settledAgain requestId callContext) state =
      let added := if callContext.notification then state else state.registered requestId
      (.ok (), if state.outgoingMessageListener then added.setSending requestId .sending
        else if added.ongoingRequests.has requestId then added
        else added.settle requestId fun _ ↦ .resolved .emptyObject) := by
  have hsent {added : RpcCommunicator Bytes Body} (hadded : Sound added)
      (hlistener : added.outgoingMessageListener = state.outgoingMessageListener) :
      exec (do
        if (← get).outgoingMessageListener then modify (RpcCommunicator.setSending requestId
          .sending)
        else onSent settledAgain requestId) added =
      (.ok (), if state.outgoingMessageListener then added.setSending requestId .sending
        else if added.ongoingRequests.has requestId then added
        else added.settle requestId fun _ ↦ .resolved .emptyObject) := by
    rw [exec_bind, exec_get]
    dsimp only
    rw [hlistener]
    by_cases hlistens : state.outgoingMessageListener = true
    · rw [if_pos hlistens, if_pos hlistens]
      rfl
    · rw [if_neg hlistens, if_neg hlistens]
      exact hadded.exec_onSent settledAgain requestId
  rw [onOutgoingMessage, exec_bind, exec_get]
  dsimp only
  rw [hstopped, if_neg Bool.false_ne_true]
  cases callContext.notification with
  | true => exact hsent hsound rfl
  | false =>
    have hregister : exec (registerRequest requestId : Action Thrown Bytes Body Unit)
        state = (.ok (), state.registered requestId) := by
      rw [registerRequest, exec_bind, exec_get]
      dsimp only
      rw [hstopped]
      rfl
    rw [Bool.not_false, if_pos rfl, exec_bind, hregister]
    exact hsent (hsound.registered hcall hstopped) rfl

/-- The computation of an event throws nothing. -/
theorem Sound.exec_perform (hsound : Sound state) (event : Event Bytes Body) :
    exec (perform settledAgain unparsable event) state = (.ok (), state.next event) := by
  cases event with
  | rpcRequest requestId callContext messageParser =>
    have hadded := hsound.withCall requestId callContext messageParser
    rw [perform, exec_bind, exec_modify]
    dsimp only
    rw [exec_bind, exec_get, RpcCommunicator.next]
    dsimp only
    rw [hadded.listens]
    by_cases hstopped : state.stopped = true
    · have hadds : (state.withCall requestId callContext messageParser).stopped = true := hstopped
      rw [hadds, Bool.not_true, if_neg Bool.false_ne_true, if_pos hstopped]
      rfl
    · have hadds : (state.withCall requestId callContext messageParser).stopped = false :=
        Bool.not_eq_true _ ▸ hstopped
      rw [hadds, Bool.not_false, if_pos rfl, if_neg hstopped]
      exact hadded.exec_onOutgoingMessage settledAgain
        (OrderedMap.has_set.mpr (Or.inl rfl)) hadds callContext
  | sent requestId =>
    rw [perform, exec_bind]
    exact (hsound.setSending requestId .finished).exec_onSent settledAgain requestId
  | sendingFailureHandled requestId =>
    rw [perform, exec_bind]
    exact (hsound.setSending requestId .finished).exec_onSent settledAgain requestId
  | sendingFailed requestId exception =>
    have hcaught := hsound.setSending requestId .caught
    rw [perform, exec_bind]
    change exec (onSendingFailed _ _ _) (state.setSending requestId .caught) = _
    rw [onSendingFailed, exec_bind, exec_get, next]
    dsimp only
    by_cases hhas : state.ongoingRequests.has requestId = true
    · have hcaughtHas :
          (state.setSending requestId .caught).ongoingRequests.has requestId = true := hhas
      rw [if_pos hcaughtHas, if_pos hhas, hcaught.exec_handleClientError, if_pos hcaughtHas]
    · have hcaughtHas :
          ¬(state.setSending requestId .caught).ongoingRequests.has requestId = true := hhas
      rw [if_neg hcaughtHas, if_neg hhas, hcaught.exec_reject]
  | message message => exact hsound.exec_handleIncomingMessage settledAgain unparsable message
  | timeout requestId => exact hsound.exec_onTimeout settledAgain requestId
  | clientError requestId exception =>
    exact hsound.exec_handleClientError settledAgain requestId _
  | setOutgoingMessageListener => rfl
  | stop => exact hsound.exec_stop settledAgain

theorem Sound.next (hsound : Sound state) (event : Event Bytes Body) :
    Sound (state.next event) := by
  cases event with
  | rpcRequest requestId callContext messageParser =>
    have hadded := hsound.withCall requestId callContext messageParser
    have hcall : (state.withCall requestId callContext messageParser).calls.has requestId = true :=
      OrderedMap.has_set.mpr (Or.inl rfl)
    rw [RpcCommunicator.next]
    dsimp only
    by_cases hstopped : state.stopped = true
    · rw [if_pos hstopped]
      exact hadded
    · have hregistered : Sound (if callContext.notification then
          state.withCall requestId callContext messageParser
          else (state.withCall requestId callContext messageParser).registered requestId) := by
        split_ifs
        · exact hadded
        · exact hadded.registered hcall (Bool.not_eq_true _ ▸ hstopped)
      rw [if_neg hstopped]
      generalize (if callContext.notification then
          state.withCall requestId callContext messageParser
          else (state.withCall requestId callContext messageParser).registered requestId) = added
        at hregistered
      split_ifs
      · exact hregistered.setSending _ _
      · exact hregistered
      · exact hregistered.settle _ _
  | sent requestId =>
    rw [RpcCommunicator.next]
    split_ifs
    · exact hsound.setSending _ _
    · exact (hsound.setSending _ _).settle _ _
  | sendingFailureHandled requestId =>
    rw [RpcCommunicator.next]
    split_ifs
    · exact hsound.setSending _ _
    · exact (hsound.setSending _ _).settle _ _
  | sendingFailed requestId exception =>
    rw [RpcCommunicator.next]
    split_ifs
    · exact (hsound.setSending _ _).finish _ _
    · exact (hsound.setSending _ _).settle _ _
  | message message =>
    rw [RpcCommunicator.next]
    split_ifs
    · exact hsound.finish _ _
    · exact hsound
  | timeout requestId => exact hsound.finish _ _
  | clientError requestId exception =>
    rw [RpcCommunicator.next]
    split_ifs
    · exact hsound.finish _ _
    · exact hsound
  | setOutgoingMessageListener =>
    exact ⟨hsound.together, hsound.requests, hsound.timers, hsound.called, hsound.stopped,
      hsound.listens⟩
  | stop => exact hsound.afterStop

end Sound

end RpcCommunicator

end PomboStorageNode.ProtoRpc
