import PomboStorageNode.Library.Throwing
import Mathlib.Data.Int.Notation

/-!
# The promises of a call

A call has four deferred promises (`ResultParts`), which `RpcCommunicator.ts` settles one after the
other: with a parsed response, with empty objects, or with an error. Each time it looks first
whether the promise of the message is pending. So the four promises are pending together, and are
settled together and once (`exec_rejectDeferredPromises` and its siblings). What a promise does that
is settled again does not matter: it may throw, or ignore it.
-/

set_option autoImplicit false

namespace PomboStorageNode.ProtoRpc

open Library Library.Throwing

/-! ### Errors and messages -/

/-- `StatusCode`. -/
inductive StatusCode
  | ok
  | stopped
  | deadlineExceeded
  | serverError
  deriving DecidableEq

/-- `RpcErrorType`, an open enumeration. -/
inductive RpcErrorType
  | serverTimeout
  | clientTimeout
  | unknownRpcMethod
  | clientError
  | serverError
  | unrecognized (number : ℤ)
  deriving DecidableEq

/-- The errors that calls are rejected with; a client side exception is given by its message. -/
inductive RpcError
  | rpcTimeout (message : String)
  | unknownRpcMethod (message : String)
  | rpcServerError (message errorClassName errorCode : Option String)
  | rpcRequest (message : String)
  | failedToParse (message : String)
  | error (message : String)
  | clientSideException (message : String)
  deriving DecidableEq

/-- The message of an error. -/
def RpcError.message : RpcError → String
  | .rpcTimeout message | .unknownRpcMethod message | .rpcRequest message
  | .failedToParse message | .error message | .clientSideException message => message
  | .rpcServerError message _ _ => message.getD ""

/-- `RpcStatus`. -/
structure RpcStatus where
  code : StatusCode
  detail : String
  deriving DecidableEq

variable {Bytes Body Thrown : Type}

/-- The keys of the header of a message that are read. -/
structure Header where
  request : Option String
  response : Option String
  method : Option String
  notification : Option String

/-- `RpcMessage`, with the value of its body. -/
structure RpcMessage (Bytes : Type) where
  header : Header
  body : Option Bytes
  requestId : String
  errorType : Option RpcErrorType
  errorClassName : Option String
  errorCode : Option String
  errorMessage : Option String

/-! ### Promises -/

/-- `Deferred`. -/
inductive Deferred (Error Value : Type)
  | pending
  | resolved (value : Value)
  | rejected (error : Error)
  deriving DecidableEq

/-- What the promise of a message is resolved with: a parsed body, or for a notification an empty
object. -/
inductive Answer (Body : Type)
  | parsed (body : Body)
  | emptyObject
  deriving DecidableEq

/-- The four deferred promises of a call. -/
structure Promises (Body : Type) where
  header : Deferred RpcError Unit
  message : Deferred RpcError (Answer Body)
  status : Deferred RpcStatus RpcStatus
  trailer : Deferred RpcError Unit
  deriving DecidableEq

/-- `ResultParts`; the parser may throw. -/
structure ResultParts (Bytes Body : Type) extends Promises Body where
  messageParser : Bytes → Option Body

/-- The promises of a new call. -/
def Promises.allPending : Promises Body := ⟨.pending, .pending, .pending, .pending⟩

namespace ResultParts

/-- What a computation on the promises of a call may do. -/
abbrev Action (Thrown Bytes Body : Type) : Type → Type :=
  Throwing Thrown (ResultParts Bytes Body)

/-- Settling a promise. One that is settled already throws or ignores it, and stays as it is. -/
def settle {Error Value : Type} (settledAgain : Option Thrown)
    (get : ResultParts Bytes Body → Deferred Error Value)
    (put : Deferred Error Value → ResultParts Bytes Body → ResultParts Bytes Body)
    (settled : Deferred Error Value) : Action Thrown Bytes Body Unit := do
  match get (← MonadState.get) with
  | .pending => modify (put settled)
  | _ =>
    match settledAgain with
    | some thrown => throw thrown
    | none => pure ()

variable (settledAgain : Option Thrown)

/-- Settling the promise of the header. -/
def settleHeader (settled : Deferred RpcError Unit) : Action Thrown Bytes Body Unit :=
  settle settledAgain (·.header) (fun header parts ↦ { parts with header }) settled

/-- Settling the promise of the message. -/
def settleMessage (settled : Deferred RpcError (Answer Body)) : Action Thrown Bytes Body Unit :=
  settle settledAgain (·.message) (fun message parts ↦ { parts with message }) settled

/-- Settling the promise of the status. -/
def settleStatus (settled : Deferred RpcStatus RpcStatus) : Action Thrown Bytes Body Unit :=
  settle settledAgain (·.status) (fun status parts ↦ { parts with status }) settled

/-- Settling the promise of the trailer. -/
def settleTrailer (settled : Deferred RpcError Unit) : Action Thrown Bytes Body Unit :=
  settle settledAgain (·.trailer) (fun trailer parts ↦ { parts with trailer }) settled

/-- The body of a branch for a pending message. -/
def ifPending (action : Action Thrown Bytes Body Unit) : Action Thrown Bytes Body Unit := do
  match (← get).message with
  | .pending => action
  | _ => pure ()

/-- `rejectDeferredPromises`. -/
def rejectDeferredPromises (error : RpcError) (code : StatusCode) : Action Thrown Bytes Body Unit :=
  ifPending do
    settleMessage settledAgain (.rejected error)
    settleHeader settledAgain (.rejected error)
    settleStatus settledAgain (.rejected ⟨code, error.message⟩)
    settleTrailer settledAgain (.rejected error)

/-- The promises are resolved. -/
def resolveAll (answer : Answer Body) : Action Thrown Bytes Body Unit := do
  settleMessage settledAgain (.resolved answer)
  settleHeader settledAgain (.resolved ())
  settleStatus settledAgain (.resolved ⟨.ok, ""⟩)
  settleTrailer settledAgain (.resolved ())

/-- The error for a response that cannot be parsed. -/
def failedToParse : RpcError := .failedToParse <| "Failed to parse received response, " ++
  "network protocol version likely is likely incompatible"

/-- The call of the parser, for a body that may be missing; `unparsable` is what it throws. -/
def parse (unparsable : Thrown) (response : RpcMessage Bytes) :
    Action Thrown Bytes Body Body := do
  match response.body.bind (← get).messageParser with
  | some body => pure body
  | none => throw unparsable

/-- `resolveDeferredPromises`. -/
def resolveDeferredPromises (unparsable : Thrown) (response : RpcMessage Bytes) :
    Action Thrown Bytes Body Unit :=
  ifPending do
    try
      let parsedResponse ← parse unparsable response
      resolveAll settledAgain (.parsed parsedResponse)
    catch _ =>
      rejectDeferredPromises settledAgain failedToParse .serverError

/-- The settlement of `resolveNotification`. -/
def resolveNotification : Action Thrown Bytes Body Unit :=
  ifPending (resolveAll settledAgain .emptyObject)

end ResultParts

/-! ### Settlements -/

/-- How a call ends. -/
inductive Settlement (Body : Type)
  | resolved (answer : Answer Body)
  | rejected (error : RpcError) (code : StatusCode)
  deriving DecidableEq

namespace Settlement

/-- The promises of a call that has ended. -/
def promises : Settlement Body → Promises Body
  | .resolved answer => ⟨.resolved (), .resolved answer, .resolved ⟨.ok, ""⟩, .resolved ()⟩
  | .rejected error code =>
    ⟨.rejected error, .rejected error, .rejected ⟨code, error.message⟩, .rejected error⟩

/-- The settlement that a response causes. -/
def ofResponse (messageParser : Bytes → Option Body) (response : RpcMessage Bytes) :
    Settlement Body :=
  match response.body.bind messageParser with
  | some body => .resolved (.parsed body)
  | none => .rejected ResultParts.failedToParse .serverError

end Settlement

/-- How a call with some promises has ended, if it has. -/
def Promises.settlement : Promises Body → Option (Settlement Body)
  | ⟨_, .resolved answer, _, _⟩ => some (.resolved answer)
  | ⟨_, .rejected error, .rejected status, _⟩ => some (.rejected error status.code)
  | _ => none

/-- The promises of a call that may have ended. -/
def promisesOf : Option (Settlement Body) → Promises Body
  | none => .allPending
  | some settlement => settlement.promises

@[simp] theorem settlement_promisesOf (settled : Option (Settlement Body)) :
    (promisesOf settled).settlement = settled := by
  rcases settled with _ | answer | ⟨error, code⟩ <;> rfl

/-- The four promises are pending, or are settled in one of the ways in which a call ends. -/
def Promises.Together (promises : Promises Body) : Prop :=
  promises = promisesOf promises.settlement

theorem together_promisesOf (settled : Option (Settlement Body)) :
    (promisesOf settled).Together := by
  rw [Promises.Together, settlement_promisesOf]

namespace ResultParts

variable (settledAgain : Option Thrown) (messageParser : Bytes → Option Body)

/-- A computation settles a pending call in some way, and leaves a settled one alone. It throws
nothing. -/
def Settles (action : Action Thrown Bytes Body Unit) (messageParser : Bytes → Option Body)
    (settlement : Settlement Body) : Prop :=
  ∀ settled, exec action ⟨promisesOf settled, messageParser⟩ =
    (.ok (), ⟨promisesOf (settled.or (some settlement)), messageParser⟩)

theorem exec_ifPending_settled {action : Action Thrown Bytes Body Unit} (settlement : Settlement Body) :
    exec (ifPending action) ⟨settlement.promises, messageParser⟩ =
      (.ok (), ⟨settlement.promises, messageParser⟩) := by
  cases settlement <;> rfl

theorem exec_ifPending_pending {action : Action Thrown Bytes Body Unit} :
    exec (ifPending action) ⟨.allPending, messageParser⟩ =
      exec action ⟨.allPending, messageParser⟩ := rfl

/-- What is done for a pending message decides the settlement. -/
theorem Settles.ifPending {action : Action Thrown Bytes Body Unit} {settlement : Settlement Body}
    (haction : exec action ⟨.allPending, messageParser⟩ =
      (.ok (), ⟨settlement.promises, messageParser⟩)) :
    Settles (ifPending action) messageParser settlement := by
  rintro (_ | settled)
  · exact (exec_ifPending_pending messageParser).trans haction
  · exact exec_ifPending_settled messageParser settled

theorem exec_resolveAll (answer : Answer Body) :
    exec (resolveAll settledAgain answer) ⟨.allPending, messageParser⟩ =
      (.ok (), ⟨(Settlement.resolved answer).promises, messageParser⟩) := rfl

theorem settles_rejectDeferredPromises (error : RpcError) (code : StatusCode) :
    Settles (rejectDeferredPromises settledAgain error code) messageParser
      (.rejected error code) :=
  .ifPending messageParser rfl

theorem settles_resolveNotification :
    Settles (resolveNotification settledAgain) messageParser (.resolved .emptyObject) :=
  .ifPending messageParser (exec_resolveAll settledAgain messageParser .emptyObject)

theorem settles_resolveDeferredPromises (unparsable : Thrown) (response : RpcMessage Bytes) :
    Settles (resolveDeferredPromises settledAgain unparsable response) messageParser
      (.ofResponse messageParser response) := by
  refine .ifPending messageParser ?_
  rw [exec_tryCatch, exec_bind]
  have hparse : exec (parse unparsable response) ⟨Promises.allPending, messageParser⟩ =
      match response.body.bind messageParser with
      | some body => (.ok body, ⟨.allPending, messageParser⟩)
      | none => (.error unparsable, ⟨.allPending, messageParser⟩) := by
    rw [parse, exec_bind, exec_get]
    dsimp only
    cases response.body.bind messageParser <;> rfl
  rw [hparse, Settlement.ofResponse]
  cases response.body.bind messageParser with
  | some body => exact exec_resolveAll settledAgain messageParser (.parsed body)
  | none =>
    exact settles_rejectDeferredPromises settledAgain messageParser failedToParse .serverError none

end ResultParts

end PomboStorageNode.ProtoRpc
