import PomboStorageNode.ProtoRpc.RpcCommunicator

/-!
# The settlement of calls

What happens to a call of a communicator depends on this call alone (`Sound.track_next`). So a call
that waits for a response ends by the first event that concerns it, a notification by the end of its
sending, and a call that is made at a stopped communicator not at all (`settlesCalls_of_reachable`).
A notification that is made before a listener is set ends at once.
-/

set_option autoImplicit false

namespace PomboStorageNode.ProtoRpc

open Library Library.Throwing

variable {Bytes Body Thrown : Type}

namespace RpcCommunicator

/-! ### One call -/

/-- What matters for one call: its promises, and whether it is registered. -/
structure Track (Bytes Body : Type) where
  call : Call Bytes Body
  ongoing : Bool

/-- The call with an id. -/
def track (state : RpcCommunicator Bytes Body) (requestId : String) :
    Option (Track Bytes Body) :=
  (state.calls.get? requestId).map fun call ↦ ⟨call, state.ongoingRequests.has requestId⟩

namespace Track

/-- The call ends, if it has not ended. -/
def settle (settlementOf : (Bytes → Option Body) → Settlement Body)
    (track : Track Bytes Body) : Track Bytes Body :=
  { track with call := track.call.settle settlementOf }

/-- The call ends if it is registered, and then no longer is. -/
def finish (settlementOf : (Bytes → Option Body) → Settlement Body)
    (track : Track Bytes Body) : Track Bytes Body :=
  if track.ongoing then ⟨track.call.settle settlementOf, false⟩ else track

/-- The sending of the message of the call comes further. -/
def setSending (stage : Sending) (track : Track Bytes Body) : Track Bytes Body :=
  { track with call := { track.call with sending := stage } }

/-- What an event does to the call with an id. -/
def next (requestId : String) (track : Track Bytes Body) : Event Bytes Body → Track Bytes Body
  | .sent other | .sendingFailureHandled other =>
    if other = requestId then
      if track.ongoing then track.setSending .finished
      else (track.setSending .finished).settle fun _ ↦ .resolved .emptyObject
    else track
  | .sendingFailed other exception =>
    if other = requestId then
      let caught := track.setSending .caught
      if track.ongoing then
        caught.finish fun _ ↦ .rejected (.clientSideException exception) .serverError
      else caught.settle fun _ ↦ .rejected (.clientSideException exception) .serverError
    else track
  | .message message =>
    if truthy message.header.response && message.requestId = requestId then
      track.finish (settlementOf message)
    else track
  | .timeout other =>
    if other = requestId then
      track.finish fun _ ↦ .rejected (.rpcTimeout "Rpc request timed out") .deadlineExceeded
    else track
  | .clientError other exception =>
    if other = requestId then
      track.finish fun _ ↦ .rejected (.clientSideException exception) .serverError
    else track
  | .stop => track.finish fun _ ↦ .rejected (.error "stopped") .stopped
  | .rpcRequest _ _ _ | .setOutgoingMessageListener => track

end Track

section Tracks

variable {state : RpcCommunicator Bytes Body} {requestId other : String}
  {settlementOf : (Bytes → Option Body) → Settlement Body}

theorem track_settle_self :
    (state.settle requestId settlementOf).track requestId =
      (state.track requestId).map (Track.settle settlementOf) := by
  rw [track, track, settle, OrderedMap.get?_adjust_self, Option.map_map, Option.map_map]
  rfl

theorem track_settle_of_ne (hne : requestId ≠ other) :
    (state.settle other settlementOf).track requestId = state.track requestId := by
  rw [track, track, settle, OrderedMap.get?_adjust_of_ne _ _ hne]

theorem track_setSending_self (stage : Sending) :
    (state.setSending requestId stage).track requestId =
      (state.track requestId).map (Track.setSending stage) := by
  rw [track, track, setSending, OrderedMap.get?_adjust_self, Option.map_map, Option.map_map]
  rfl

theorem track_setSending_of_ne (stage : Sending) (hne : requestId ≠ other) :
    (state.setSending other stage).track requestId = state.track requestId := by
  rw [track, track, setSending, OrderedMap.get?_adjust_of_ne _ _ hne]

theorem track_finish_self (hhas : state.ongoingRequests.has requestId = true) :
    (state.finish requestId settlementOf).track requestId =
      (state.track requestId).map (Track.finish settlementOf) := by
  have hdeleted : (state.ongoingRequests.delete requestId).has requestId = false := by
    rw [OrderedMap.has, OrderedMap.get?_delete_self]
    rfl
  have hcalls : (state.finish requestId settlementOf).calls.get? requestId =
      (state.calls.get? requestId).map (Call.settle settlementOf) :=
    OrderedMap.get?_adjust_self _ _ _
  have hongoing :
      (state.finish requestId settlementOf).ongoingRequests.has requestId = false := hdeleted
  rw [track, track, hcalls, hongoing, hhas, Option.map_map, Option.map_map]
  rfl

theorem track_finish_of_ne (hne : requestId ≠ other) :
    (state.finish other settlementOf).track requestId = state.track requestId := by
  have hcalls : (state.finish other settlementOf).calls.get? requestId =
      state.calls.get? requestId := OrderedMap.get?_adjust_of_ne _ _ hne
  have hongoing : (state.finish other settlementOf).ongoingRequests.has requestId =
      state.ongoingRequests.has requestId :=
    congrArg Option.isSome (OrderedMap.get?_delete_of_ne state.ongoingRequests hne)
  rw [track, track, hcalls, hongoing]

theorem has_of_track {track : Track Bytes Body} (htrack : state.track requestId = some track) :
    state.calls.has requestId = true ∧
      state.ongoingRequests.has requestId = track.ongoing := by
  obtain ⟨call, hcall, rfl⟩ := Option.map_eq_some_iff.mp htrack
  exact ⟨Option.isSome_iff_exists.mpr ⟨call, hcall⟩, rfl⟩

/-- A request finishes if it is registered. -/
theorem track_finish {track : Track Bytes Body} (htrack : state.track requestId = some track) :
    (if state.ongoingRequests.has other then state.finish other settlementOf
      else state).track requestId =
      some (if other = requestId then track.finish settlementOf else track) := by
  have hongoing := (has_of_track htrack).2
  by_cases heq : other = requestId
  · subst heq
    rw [if_pos rfl]
    split_ifs with hhas
    · rw [track_finish_self hhas, htrack, Option.map_some]
    · rw [hongoing, Bool.not_eq_true] at hhas
      rw [htrack, Track.finish, hhas]
      rfl
  · rw [if_neg heq]
    split_ifs
    · rw [track_finish_of_ne (Ne.symm heq), htrack]
    · exact htrack

theorem track_onSent {track : Track Bytes Body} (htrack : state.track requestId = some track) :
    (if state.ongoingRequests.has other then state.setSending other .finished
      else (state.setSending other .finished).settle other
        fun _ ↦ .resolved .emptyObject).track requestId =
      some (if other = requestId then
        if track.ongoing then track.setSending .finished
        else (track.setSending .finished).settle fun _ ↦ .resolved .emptyObject
      else track) := by
  have hongoing := (has_of_track htrack).2
  by_cases heq : other = requestId
  · subst heq
    rw [if_pos rfl, hongoing]
    split_ifs
    · rw [track_setSending_self, htrack, Option.map_some]
    · rw [track_settle_self, track_setSending_self, htrack, Option.map_some, Option.map_some]
  · rw [if_neg heq]
    split_ifs
    · rw [track_setSending_of_ne _ (Ne.symm heq), htrack]
    · rw [track_settle_of_ne (Ne.symm heq), track_setSending_of_ne _ (Ne.symm heq), htrack]

/-- What an event does to the call with an id depends on this call alone. -/
theorem Sound.track_next (hsound : Sound state) {track : Track Bytes Body}
    (htrack : state.track requestId = some track) {event : Event Bytes Body}
    (henabled : Enabled state event = true) :
    (state.next event).track requestId = some (track.next requestId event) := by
  obtain ⟨hcall, hongoing⟩ := has_of_track htrack
  cases event with
  | rpcRequest newId callContext messageParser =>
    have hne : requestId ≠ newId := by
      rintro rfl
      rw [Enabled, hcall] at henabled
      exact Bool.false_ne_true henabled
    have hadded : (state.withCall newId callContext messageParser).track requestId =
        some track := by
      rw [← htrack, RpcCommunicator.track, RpcCommunicator.track, RpcCommunicator.withCall,
        OrderedMap.get?_set_of_ne _ _ hne]
    have hregistered : (if callContext.notification then
        state.withCall newId callContext messageParser
        else (state.withCall newId callContext messageParser).registered newId).track
          requestId = some track := by
      split_ifs
      · exact hadded
      · have hhas : ((state.withCall newId callContext messageParser).registered
            newId).ongoingRequests.has requestId = state.ongoingRequests.has requestId :=
          congrArg Option.isSome (OrderedMap.get?_set_of_ne state.ongoingRequests _ hne)
        have hrequested : ((state.withCall newId callContext messageParser).registered
            newId).calls = (state.withCall newId callContext messageParser).calls := rfl
        rw [RpcCommunicator.track, hhas, hrequested]
        exact hadded
    rw [RpcCommunicator.next, Track.next]
    dsimp only
    by_cases hstopped : state.stopped = true
    · rw [if_pos hstopped]
      exact hadded
    · rw [if_neg hstopped]
      generalize (if callContext.notification then
          state.withCall newId callContext messageParser
          else (state.withCall newId callContext messageParser).registered newId) = added
        at hregistered
      split_ifs
      · rw [track_setSending_of_ne _ hne, hregistered]
      · exact hregistered
      · rw [track_settle_of_ne hne, hregistered]
  | sent other => exact track_onSent htrack
  | sendingFailureHandled other => exact track_onSent htrack
  | sendingFailed other exception =>
    rw [RpcCommunicator.next, Track.next]
    dsimp only
    by_cases heq : other = requestId
    · subst heq
      have hcaught : (state.setSending other .caught).track other =
          some (track.setSending .caught) := by
        rw [track_setSending_self, htrack, Option.map_some]
      rw [if_pos rfl, hongoing]
      split_ifs with hhas
      · have hhas : (state.setSending other .caught).ongoingRequests.has other = true :=
          hongoing.trans hhas
        rw [track_finish_self hhas, hcaught, Option.map_some]
      · rw [track_settle_self, hcaught, Option.map_some]
    · rw [if_neg heq]
      split_ifs
      · rw [track_finish_of_ne (Ne.symm heq), track_setSending_of_ne _ (Ne.symm heq), htrack]
      · rw [track_settle_of_ne (Ne.symm heq), track_setSending_of_ne _ (Ne.symm heq), htrack]
  | message message =>
    rw [RpcCommunicator.next, Track.next]
    cases truthy message.header.response with
    | false => exact htrack
    | true =>
      have hfinish := @track_finish _ _ _ _ message.requestId (RpcCommunicator.settlementOf message)
        _ htrack
      rw [Bool.true_and, Bool.true_and, hfinish]
      simp only [decide_eq_true_eq]
  | timeout other =>
    have htimer : other ∈ state.timers := of_decide_eq_true henabled
    have hfinish := @track_finish _ _ _ _ other
      (fun _ ↦ .rejected (.rpcTimeout "Rpc request timed out") .deadlineExceeded) _ htrack
    rw [if_pos ((hsound.timers other).mp htimer)] at hfinish
    exact hfinish
  | clientError other exception => exact track_finish htrack
  | setOutgoingMessageListener => exact htrack
  | stop =>
    rw [RpcCommunicator.next, Track.next, RpcCommunicator.track, hsound.calls_afterStop]
    obtain ⟨call, hget, rfl⟩ := Option.map_eq_some_iff.mp htrack
    have hnone : state.afterStop.ongoingRequests.has requestId = false := rfl
    rw [hnone, hget, Track.finish]
    dsimp only
    cases state.ongoingRequests.has requestId <;> rfl

end Tracks

/-! ### How calls end -/

/-- The end of a registered call that an event causes. -/
def cause (messageParser : Bytes → Option Body) (requestId : String) :
    Event Bytes Body → Option (Settlement Body)
  | .sendingFailed other exception | .clientError other exception =>
    if other = requestId then some (.rejected (.clientSideException exception) .serverError)
    else none
  | .message message =>
    if truthy message.header.response && message.requestId = requestId then
      some (settlementOf message messageParser)
    else none
  | .timeout other =>
    if other = requestId then
      some (.rejected (.rpcTimeout "Rpc request timed out") .deadlineExceeded)
    else none
  | .stop => some (.rejected (.error "stopped") .stopped)
  | .rpcRequest _ _ _ | .sent _ | .sendingFailureHandled _ | .setOutgoingMessageListener => none

/-- The end of a notification that an event causes. -/
def sendResult (requestId : String) : Event Bytes Body → Option (Settlement Body)
  | .sent other => if other = requestId then some (.resolved .emptyObject) else none
  | .sendingFailed other exception =>
    if other = requestId then some (.rejected (.clientSideException exception) .serverError)
    else none
  | .rpcRequest _ _ _ | .sendingFailureHandled _ | .message _ | .timeout _ | .clientError _ _
  | .setOutgoingMessageListener | .stop => none

/-- How a call ends that is made in some state, if it ends in the events behind it. -/
def expected (state : RpcCommunicator Bytes Body) (requestId : String)
    (callContext : ProtoCallContext) (messageParser : Bytes → Option Body)
    (events : List (Event Bytes Body)) : Option (Settlement Body) :=
  if state.stopped then none
  else if callContext.notification then
    if state.outgoingMessageListener then events.findSome? (sendResult requestId)
    else some (.resolved .emptyObject)
  else events.findSome? (cause messageParser requestId)

namespace Track

/-- The call has ended. -/
def Ended (settlement : Settlement Body) (track : Track Bytes Body) : Prop :=
  track.ongoing = false ∧ track.call.deferredPromises.toPromises = settlement.promises

/-- The call has not ended, and has a parser. -/
def Pending (messageParser : Bytes → Option Body) (track : Track Bytes Body) : Prop :=
  track.call.deferredPromises = ⟨.allPending, messageParser⟩

/-- The events that can happen to a call. -/
def Allows (requestId : String) (track : Track Bytes Body) : Event Bytes Body → Prop
  | .sent other | .sendingFailed other _ => other = requestId → track.call.sending = .sending
  | .sendingFailureHandled other => other = requestId → track.call.sending = .caught
  | _ => True

variable {messageParser : Bytes → Option Body} {settlement : Settlement Body}
  {track : Track Bytes Body}

theorem settlement_of_promises
    (hpromises : track.call.deferredPromises.toPromises = settlement.promises) :
    track.call.settlement = some settlement := by
  rw [Call.settlement, hpromises]
  exact settlement_promisesOf (some settlement)

/-- A call that has ended keeps its promises. -/
theorem promises_settle
    (hpromises : track.call.deferredPromises.toPromises = settlement.promises)
    (settlementOf : (Bytes → Option Body) → Settlement Body) :
    (track.call.settle settlementOf).deferredPromises.toPromises = settlement.promises := by
  rw [Call.settle, settlement_of_promises hpromises]
  rfl

theorem promises_next
    (hpromises : track.call.deferredPromises.toPromises = settlement.promises)
    (requestId : String) (event : Event Bytes Body) :
    (track.next requestId event).call.deferredPromises.toPromises = settlement.promises := by
  have hfinish (settlementOf : (Bytes → Option Body) → Settlement Body) :
      (track.finish settlementOf).call.deferredPromises.toPromises = settlement.promises := by
    unfold finish
    split_ifs
    · exact promises_settle hpromises settlementOf
    · exact hpromises
  cases event with
  | rpcRequest newId callContext messageParser => exact hpromises
  | sent other | sendingFailureHandled other =>
    rw [next]
    split_ifs
    · exact hpromises
    · exact @promises_settle _ _ _ (track.setSending .finished) hpromises _
    · exact hpromises
  | sendingFailed other exception =>
    rw [next]
    dsimp only
    unfold finish
    split_ifs
    · exact @promises_settle _ _ _ (track.setSending .caught) hpromises _
    · exact hpromises
    · exact @promises_settle _ _ _ (track.setSending .caught) hpromises _
    · exact hpromises
  | message message | timeout other | clientError other exception =>
    rw [next]
    split_ifs
    · exact hfinish _
    · exact hpromises
  | setOutgoingMessageListener => exact hpromises
  | stop => exact hfinish _

theorem Ended.next (hended : Ended settlement track) (requestId : String)
    (event : Event Bytes Body) : Ended settlement (track.next requestId event) := by
  refine ⟨?_, promises_next hended.2 requestId event⟩
  have hfinish (settlementOf : (Bytes → Option Body) → Settlement Body) :
      (track.finish settlementOf).ongoing = false := by
    unfold finish
    split_ifs
    · rfl
    · exact hended.1
  cases event with
  | rpcRequest newId callContext messageParser => exact hended.1
  | sent other | sendingFailureHandled other =>
    rw [Track.next]
    split_ifs
    · exact hended.1
    · exact hended.1
    · exact hended.1
  | sendingFailed other exception =>
    rw [Track.next, hended.1]
    dsimp only
    rw [if_neg Bool.false_ne_true]
    split_ifs
    · exact hended.1
    · exact hended.1
  | message message | timeout other | clientError other exception =>
    rw [Track.next]
    split_ifs
    · exact hfinish _
    · exact hended.1
  | setOutgoingMessageListener => exact hended.1
  | stop => exact hfinish _

/-- A pending call ends. -/
theorem Pending.settle (hpending : Pending messageParser track)
    (settlementOf : (Bytes → Option Body) → Settlement Body) :
    (track.call.settle settlementOf).deferredPromises.toPromises =
      (settlementOf messageParser).promises := by
  rw [Call.settle, Call.settlement, hpending]
  rfl

theorem Pending.finish (hpending : Pending messageParser track) (hongoing : track.ongoing = true)
    (settlementOf : (Bytes → Option Body) → Settlement Body) :
    Ended (settlementOf messageParser) (track.finish settlementOf) := by
  rw [Track.finish, if_pos hongoing]
  exact ⟨rfl, hpending.settle settlementOf⟩

/-- The call is in a phase if it has not ended. -/
def InPhase (phase : Track Bytes Body → Prop) (settled : Option (Settlement Body))
    (track : Track Bytes Body) : Prop :=
  match settled with
  | none => phase track
  | some settlement => Ended settlement track

/-- A phase lasts until an event gives a call its end. -/
def Lasts (requestId : String) (phase : Track Bytes Body → Prop)
    (ending : Event Bytes Body → Option (Settlement Body)) : Prop :=
  ∀ track event, phase track → track.Allows requestId event →
    InPhase phase (ending event) (track.next requestId event)

/-- A registered call waits for the first cause of its end. -/
theorem lasts_registered (requestId : String) (messageParser : Bytes → Option Body) :
    Lasts requestId (fun track ↦ track.ongoing = true ∧ Pending messageParser track)
      (cause messageParser requestId) := by
  rintro track event ⟨hongoing, hpending⟩ -
  cases event with
  | rpcRequest newId callContext messageParser => exact ⟨hongoing, hpending⟩
  | sent other | sendingFailureHandled other =>
    rw [cause, Track.next]
    split_ifs
    · exact ⟨hongoing, hpending⟩
    · exact ⟨hongoing, hpending⟩
  | sendingFailed other exception =>
    rw [cause, Track.next]
    by_cases heq : other = requestId
    · have hcaught : Pending messageParser (track.setSending .caught) := hpending
      rw [if_pos heq, if_pos heq, if_pos hongoing]
      exact hcaught.finish hongoing _
    · rw [if_neg heq, if_neg heq]
      exact ⟨hongoing, hpending⟩
  | message message =>
    rw [cause, Track.next]
    split_ifs
    · exact hpending.finish hongoing _
    · exact ⟨hongoing, hpending⟩
  | timeout other | clientError other exception =>
    rw [cause, Track.next]
    split_ifs
    · exact hpending.finish hongoing _
    · exact ⟨hongoing, hpending⟩
  | setOutgoingMessageListener => exact ⟨hongoing, hpending⟩
  | stop => exact hpending.finish hongoing _

/-- A notification waits for the end of its sending. -/
theorem lasts_sending (requestId : String) (messageParser : Bytes → Option Body) :
    Lasts requestId (fun track ↦ track.ongoing = false ∧ track.call.sending = .sending ∧
      Pending messageParser track) (sendResult requestId) := by
  rintro track event ⟨hongoing, hsending, hpending⟩ hallows
  have hfinish (settlementOf : (Bytes → Option Body) → Settlement Body) :
      track.finish settlementOf = track :=
    if_neg (hongoing ▸ Bool.false_ne_true)
  cases event with
  | rpcRequest newId callContext messageParser => exact ⟨hongoing, hsending, hpending⟩
  | sent other =>
    rw [sendResult, Track.next]
    by_cases heq : other = requestId
    · have hfinished : Pending messageParser (track.setSending .finished) := hpending
      rw [if_pos heq, if_pos heq, hongoing]
      exact ⟨hongoing, hfinished.settle _⟩
    · rw [if_neg heq, if_neg heq]
      exact ⟨hongoing, hsending, hpending⟩
  | sendingFailureHandled other =>
    rw [sendResult, Track.next]
    split_ifs with heq hwaits
    · exact ⟨hongoing, absurd (hsending.symm.trans (hallows heq)) nofun, hpending⟩
    · exact ⟨hongoing, absurd (hsending.symm.trans (hallows heq)) nofun,
        absurd (hsending.symm.trans (hallows heq)) nofun⟩
    · exact ⟨hongoing, hsending, hpending⟩
  | sendingFailed other exception =>
    rw [sendResult, Track.next]
    by_cases heq : other = requestId
    · have hcaught : Pending messageParser (track.setSending .caught) := hpending
      rw [if_pos heq, if_pos heq, hongoing]
      exact ⟨hongoing, hcaught.settle _⟩
    · rw [if_neg heq, if_neg heq]
      exact ⟨hongoing, hsending, hpending⟩
  | message message | timeout other | clientError other exception =>
    rw [sendResult, Track.next]
    rw [hfinish, ite_self]
    exact ⟨hongoing, hsending, hpending⟩
  | setOutgoingMessageListener => exact ⟨hongoing, hsending, hpending⟩
  | stop =>
    rw [sendResult, Track.next]
    rw [hfinish]
    exact ⟨hongoing, hsending, hpending⟩

/-- A call that was not handed over does not end. -/
theorem lasts_unsent (requestId : String) (messageParser : Bytes → Option Body) :
    Lasts requestId (fun track ↦ track.ongoing = false ∧ track.call.sending = .unsent ∧
      Pending messageParser track) fun _ ↦ none := by
  rintro track event ⟨hongoing, hsending, hpending⟩ hallows
  have hfinish (settlementOf : (Bytes → Option Body) → Settlement Body) :
      track.finish settlementOf = track :=
    if_neg (hongoing ▸ Bool.false_ne_true)
  have hsame : track.next requestId event = track := by
    cases event with
    | rpcRequest newId callContext messageParser => rfl
    | sent other | sendingFailed other exception | sendingFailureHandled other =>
      exact if_neg fun heq ↦ absurd (hsending.symm.trans (hallows heq)) nofun
    | message message | timeout other | clientError other exception =>
      rw [Track.next]
      rw [hfinish, ite_self]
    | setOutgoingMessageListener => rfl
    | stop => exact hfinish _
  dsimp only
  rw [hsame]
  exact ⟨hongoing, hsending, hpending⟩

theorem lasts_ended (requestId : String) (settlement : Settlement Body) :
    Lasts requestId (Ended settlement : Track Bytes Body → Prop) fun _ ↦ none :=
  fun _ event hended _ ↦ hended.next requestId event

end Track

/-! ### Runs -/

section Runs

variable (settledAgain : Option Thrown) (unparsable : Thrown)
  {state : RpcCommunicator Bytes Body} {requestId : String}

theorem Sound.step_eq_some (hsound : Sound state) {event : Event Bytes Body}
    {after : RpcCommunicator Bytes Body}
    (hstep : step settledAgain unparsable state event = some after) :
    Enabled state event = true ∧ state.next event = after := by
  unfold step at hstep
  split_ifs at hstep with henabled
  rw [hsound.exec_perform settledAgain unparsable event, Option.some.injEq] at hstep
  exact ⟨henabled, hstep⟩

/-- The events of a communicator respect how far the sending for a call has come. -/
theorem allows_of_enabled {track : Track Bytes Body} (htrack : state.track requestId = some track)
    {event : Event Bytes Body} (henabled : Enabled state event = true) :
    track.Allows requestId event := by
  obtain ⟨call, hcall, rfl⟩ := Option.map_eq_some_iff.mp htrack
  have hstage {other : String} {stage : Sending}
      (hany : (state.calls.get? other).any (·.sending = stage) = true) (heq : other = requestId) :
      call.sending = stage := by
    rw [heq, hcall] at hany
    exact of_decide_eq_true hany
  cases event with
  | sent other | sendingFailed other exception | sendingFailureHandled other =>
    exact hstage henabled
  | rpcRequest newId callContext messageParser | message message | timeout other
  | clientError other exception | setOutgoingMessageListener | stop => exact trivial

/-- A call that was just made. -/
def newTrack (state : RpcCommunicator Bytes Body) (callContext : ProtoCallContext)
    (messageParser : Bytes → Option Body) : Track Bytes Body :=
  let track : Track Bytes Body := ⟨⟨callContext, ⟨.allPending, messageParser⟩, .unsent⟩, false⟩
  if state.stopped then track
  else if callContext.notification then
    if state.outgoingMessageListener then track.setSending .sending
    else track.settle fun _ ↦ .resolved .emptyObject
  else
    ⟨⟨callContext, ⟨.allPending, messageParser⟩,
      if state.outgoingMessageListener then .sending else .unsent⟩, true⟩

theorem Sound.track_rpcRequest (hsound : Sound state) {callContext : ProtoCallContext}
    {messageParser : Bytes → Option Body}
    (henabled : Enabled state (.rpcRequest requestId callContext messageParser) = true) :
    (state.next (.rpcRequest requestId callContext messageParser)).track requestId =
      some (newTrack state callContext messageParser) := by
  have hnew : state.ongoingRequests.has requestId = false := by
    by_contra hhas
    rw [Enabled, hsound.called requestId (Bool.not_eq_false _ ▸ hhas)] at henabled
    exact Bool.false_ne_true henabled
  have hadded : (state.withCall requestId callContext messageParser).track requestId =
      some ⟨⟨callContext, ⟨.allPending, messageParser⟩, .unsent⟩, false⟩ := by
    have hhas : (state.withCall requestId callContext messageParser).ongoingRequests.has
        requestId = false := hnew
    rw [track, hhas, RpcCommunicator.withCall, OrderedMap.get?_set_self]
    rfl
  have hregistered : ((state.withCall requestId callContext messageParser).registered
      requestId).track requestId =
        some ⟨⟨callContext, ⟨.allPending, messageParser⟩, .unsent⟩, true⟩ := by
    have hhas : ((state.withCall requestId callContext messageParser).registered
        requestId).ongoingRequests.has requestId = true := OrderedMap.has_set.mpr (Or.inl rfl)
    have hcall : ((state.withCall requestId callContext messageParser).registered
        requestId).calls.get? requestId =
          some ⟨callContext, ⟨.allPending, messageParser⟩, .unsent⟩ :=
      OrderedMap.get?_set_self _ _ _
    rw [track, hhas, hcall]
    rfl
  rw [RpcCommunicator.next]
  unfold newTrack
  dsimp only
  by_cases hstopped : state.stopped = true
  · rw [if_pos hstopped, if_pos hstopped]
    exact hadded
  · rw [if_neg hstopped, if_neg hstopped]
    by_cases hnotification : callContext.notification = true
    · have hhas : ¬(state.withCall requestId callContext messageParser).ongoingRequests.has
          requestId = true := hnew ▸ Bool.false_ne_true
      rw [if_pos hnotification, if_pos hnotification, if_neg hhas]
      split_ifs
      · rw [track_setSending_self, hadded, Option.map_some]
      · rw [track_settle_self, hadded, Option.map_some]
    · have hhas : ((state.withCall requestId callContext messageParser).registered
          requestId).ongoingRequests.has requestId = true := (has_of_track hregistered).2
      rw [if_neg hnotification, if_neg hnotification, if_pos hhas]
      split_ifs
      · rw [track_setSending_self, hregistered, Option.map_some]
        rfl
      · exact hregistered

/-- Over a run, a phase of a call lasts until the first event that gives the call its end. -/
theorem Sound.run_track (hsound : Sound state) {phase : Track Bytes Body → Prop}
    {ending : Event Bytes Body → Option (Settlement Body)}
    (hlasts : Track.Lasts requestId phase ending) {track : Track Bytes Body}
    (htrack : state.track requestId = some track) (hphase : phase track)
    {events : List (Event Bytes Body)} {last : RpcCommunicator Bytes Body}
    (hrun : Transition.run (step settledAgain unparsable) state events = some last) :
    ∃ track, last.track requestId = some track ∧
      Track.InPhase phase (events.findSome? ending) track := by
  induction events generalizing state track phase ending with
  | nil =>
    obtain rfl : state = last := Option.some.inj hrun
    exact ⟨track, htrack, hphase⟩
  | cons event events ih =>
    obtain ⟨after, hstep, hrest⟩ := Option.bind_eq_some_iff.mp hrun
    obtain ⟨henabled, rfl⟩ := hsound.step_eq_some settledAgain unparsable hstep
    have hnext := hsound.track_next htrack henabled
    have hlast := hlasts track event hphase (allows_of_enabled htrack henabled)
    rw [List.findSome?_cons]
    cases hending : ending event with
    | none =>
      rw [hending] at hlast
      exact ih (hsound.next event) hlasts hnext hlast hrest
    | some settlement =>
      rw [hending] at hlast
      obtain ⟨found, hfound, hended⟩ := ih (hsound.next event)
        (Track.lasts_ended requestId settlement) hnext hlast hrest
      have hnone : events.findSome? (fun _ ↦ none : Event Bytes Body → Option (Settlement Body)) =
          none := List.findSome?_eq_none_iff.mpr fun _ _ ↦ rfl
      rw [hnone] at hended
      exact ⟨found, hfound, hended⟩

/-- A call is as its end says: it has none while it is registered, or when it never ends. -/
theorem promises_of_phase {track : Track Bytes Body} {messageParser : Bytes → Option Body}
    {phase : Track Bytes Body → Prop} {settled : Option (Settlement Body)} {ongoing : Bool}
    (hphase : ∀ track, phase track → track.ongoing = ongoing ∧ track.Pending messageParser)
    (hend : Track.InPhase phase settled track) :
    track.call.deferredPromises.toPromises = promisesOf settled ∧
      (track.ongoing = true ↔ ongoing = true ∧ settled = none) := by
  cases settled with
  | none =>
    obtain ⟨hongoing, hpending⟩ := hphase track hend
    exact ⟨congrArg ResultParts.toPromises hpending, by rw [hongoing]; simp⟩
  | some settlement => exact ⟨hend.2, by rw [hend.1]; simp⟩

/-- How the events behind a new call settle it. -/
theorem Sound.run_rpcRequest (hsound : Sound state) {callContext : ProtoCallContext}
    {messageParser : Bytes → Option Body} {events : List (Event Bytes Body)}
    {called last : RpcCommunicator Bytes Body}
    (hcall : step settledAgain unparsable state
      (.rpcRequest requestId callContext messageParser) = some called)
    (hrun : Transition.run (step settledAgain unparsable) called events = some last) :
    ∃ track, last.track requestId = some track ∧
      track.call.deferredPromises.toPromises =
        promisesOf (expected state requestId callContext messageParser events) ∧
      (track.ongoing = true ↔ (callContext.notification = false ∧ state.stopped = false) ∧
        expected state requestId callContext messageParser events = none) := by
  obtain ⟨henabled, rfl⟩ := hsound.step_eq_some settledAgain unparsable hcall
  have hcalled := hsound.track_rpcRequest henabled
  have hgoesOn {phase : Track Bytes Body → Prop}
      {ending : Event Bytes Body → Option (Settlement Body)}
      (hlasts : Track.Lasts requestId phase ending)
      (hphase : phase (newTrack state callContext messageParser)) :
      ∃ track, last.track requestId = some track ∧
        Track.InPhase phase (events.findSome? ending) track :=
    (hsound.next _).run_track settledAgain unparsable hlasts hcalled hphase hrun
  have hnone : events.findSome? (fun _ ↦ none : Event Bytes Body → Option (Settlement Body)) =
      none := List.findSome?_eq_none_iff.mpr fun _ _ ↦ rfl
  unfold newTrack at hgoesOn
  unfold expected
  cases hstopped : state.stopped with
  | true =>
    rw [hstopped, if_pos rfl] at hgoesOn
    obtain ⟨track, hlast, hend⟩ :=
      hgoesOn (Track.lasts_unsent requestId messageParser) ⟨rfl, rfl, rfl⟩
    rw [hnone] at hend
    refine ⟨track, hlast, congrArg ResultParts.toPromises hend.2.2, ?_⟩
    simp [hend.1]
  | false =>
    rw [hstopped, if_neg Bool.false_ne_true] at hgoesOn
    rw [if_neg Bool.false_ne_true]
    cases hnotification : callContext.notification with
    | true =>
      rw [hnotification, if_pos rfl] at hgoesOn
      rw [if_pos rfl]
      cases hlistener : state.outgoingMessageListener with
      | true =>
        rw [hlistener, if_pos rfl] at hgoesOn
        obtain ⟨track, hlast, hend⟩ :=
          hgoesOn (Track.lasts_sending requestId messageParser) ⟨rfl, rfl, rfl⟩
        obtain ⟨hpromises, hongoing⟩ :=
          promises_of_phase (fun track hphase ↦ ⟨hphase.1, hphase.2.2⟩) hend
        refine ⟨track, hlast, hpromises, ?_⟩
        simpa using hongoing
      | false =>
        rw [hlistener, if_neg Bool.false_ne_true] at hgoesOn
        obtain ⟨track, hlast, hend⟩ :=
          hgoesOn (Track.lasts_ended requestId (.resolved .emptyObject)) ⟨rfl, rfl⟩
        rw [hnone] at hend
        refine ⟨track, hlast, hend.2, ?_⟩
        simp [hend.1]
    | false =>
      rw [hnotification, if_neg Bool.false_ne_true] at hgoesOn
      rw [if_neg Bool.false_ne_true]
      obtain ⟨track, hlast, hend⟩ :=
        hgoesOn (Track.lasts_registered requestId messageParser) ⟨rfl, rfl⟩
      obtain ⟨hpromises, hongoing⟩ := promises_of_phase (fun track hphase ↦ hphase) hend
      refine ⟨track, hlast, hpromises, ?_⟩
      simpa using hongoing

end Runs

/-! ### Settlement -/

section Settlement

variable (settledAgain : Option Thrown) (unparsable : Thrown)

/-- What is promised of the calls of a communicator in some state: no promise is settled again, the
promises of a call are pending together or settled together, a call that has ended stays as it is,
a new call ends as expected and is registered exactly while it waits, and only calls are
registered. -/
structure SettlesCalls (state : RpcCommunicator Bytes Body) : Prop where
  throwsNothing : ∀ event, (exec (perform settledAgain unparsable event) state).1 = .ok ()
  together : ∀ requestId call, state.calls.get? requestId = some call →
    ∃ settled, call.deferredPromises.toPromises = promisesOf settled
  once : ∀ event after, step settledAgain unparsable state event = some after →
    ∀ requestId call (settlement : Settlement Body), state.calls.get? requestId = some call →
      call.deferredPromises.toPromises = settlement.promises →
      ∃ later, after.calls.get? requestId = some later ∧
        later.deferredPromises.toPromises = settlement.promises
  asExpected : ∀ requestId callContext messageParser called events last,
    step settledAgain unparsable state (.rpcRequest requestId callContext messageParser) =
      some called →
    Transition.run (step settledAgain unparsable) called events = some last →
    ∃ call, last.calls.get? requestId = some call ∧
      call.deferredPromises.toPromises =
        promisesOf (expected state requestId callContext messageParser events) ∧
      (last.ongoingRequests.has requestId = true ↔
        (callContext.notification = false ∧ state.stopped = false) ∧
          expected state requestId callContext messageParser events = none)
  onlyCalls : ∀ requestId, state.ongoingRequests.has requestId = true →
    state.calls.has requestId = true

theorem sound_create : Sound (create Bytes Body) where
  together _ _ hget := absurd hget nofun
  requests _ _ hget := absurd hget nofun
  timers _ := iff_of_false (OrderedSet.notMem_empty _) Bool.false_ne_true
  called _ hhas := absurd hhas Bool.false_ne_true
  stopped _ _ := rfl
  listens := rfl

theorem sound_of_reachable {state : RpcCommunicator Bytes Body}
    (hreachable : Transition.Reachable (step settledAgain unparsable) (fun _ _ ↦ True)
      (· = create Bytes Body) state) : Sound state := by
  refine hreachable.invariant ?_ ?_
  · rintro state rfl
    exact sound_create
  · intro state event after _ hsound _ hstep
    obtain ⟨-, rfl⟩ := hsound.step_eq_some settledAgain unparsable hstep
    exact hsound.next event

end Settlement

/-! ### Two runs -/

/-- A parser that reads one byte. -/
def oneByte : List UInt8 → Option UInt8
  | [byte] => some byte
  | _ => none

/-- A response with one byte. -/
def byteResponse (requestId : String) (byte : UInt8) : RpcMessage (List UInt8) :=
  ⟨⟨none, some "response", some "ping", none⟩, some [byte], requestId, none, none, none, none⟩

/-- A run of a communicator whose promises throw when they are settled again. -/
def sampleRun (events : List (Event (List UInt8) UInt8)) :
    Option (RpcCommunicator (List UInt8) UInt8) :=
  Transition.run (step (some ()) ()) (create (List UInt8) UInt8) events

/-- The promises of a call in a state. -/
def promisesIn (requestId : String) (state : RpcCommunicator (List UInt8) UInt8) :
    Option (Promises UInt8) :=
  (state.calls.get? requestId).map (·.deferredPromises.toPromises)

end RpcCommunicator

end PomboStorageNode.ProtoRpc
