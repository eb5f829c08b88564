import PomboStorageNode.Dht.Identifiers
import PomboStorageNode.Library.OrderedMap
import PomboStorageNode.Library.Transition
import Mathlib.Algebra.Group.Int.Defs

/-!
# The connections of a node to one remote node

`ConnectionManager.ts` keeps one endpoint for each remote node: a pending connection with the buffer
of what was sent meanwhile, or a managed connection. A connector keeps the pending connections it
has opened until they are connected or disconnected, and hands the same one out again meanwhile.
Which of two connections to the same remote node stays is decided by `getOfferer`: the endpoint, or
the new connection, to which the buffer then moves.

The state is that of one node towards one remote node. Messages are numbered in the order in which
they were buffered, pending and managed connections by the order of their creation or any other.
The events are the calls of `send`, what the remote node starts, and what the handshaker, the
socket and the timer of a pending connection report, one whole callback each.
-/

set_option autoImplicit false

namespace PomboStorageNode.Dht

open Library

/-! ### Who offers -/

/-- `Offerer`. -/
inductive Offerer
  | localNode
  | remoteNode
  deriving DecidableEq, Repr

/-- `readInt32LE(0)`. -/
def readInt32LE (buffer : List UInt8) : ℤ :=
  let value := (buffer.take 4).foldr (fun byte rest ↦ (byte.toNat : ℤ) + 256 * rest) 0
  if value < 2 ^ 31 then value else value - 2 ^ 32

/-- `getOfferingHash`. -/
def getOfferingHash (computeMd5 : List Char → List UInt8) (idPair : List Char) : ℤ :=
  readInt32LE (computeMd5 idPair)

/-- `getOfferer`. -/
def getOfferer (computeMd5 : List Char → List UInt8) (localNodeId remoteNodeId : DhtAddress) :
    Offerer :=
  if getOfferingHash computeMd5 (localNodeId.text ++ ',' :: remoteNodeId.text) <
      getOfferingHash computeMd5 (remoteNodeId.text ++ ',' :: localNodeId.text) then .localNode
  else .remoteNode

/-! ### The state -/

/-- Who drives a pending connection: `createOutgoingHandshaker`, `createIncomingHandshaker`, or the
requests that `WebsocketServerConnector` has made to the remote node. -/
inductive Wiring
  | outgoing
  | incoming
  | requested
  deriving DecidableEq, Repr

/-- `PendingConnection`, with its listeners: those of its handshaker (`handshaking`), the connector's
`delFunc` (`attached`), and the connection manager's. -/
structure PendingConnection where
  wiring : Wiring
  replacedAsDuplicate : Bool
  stopped : Bool
  handshaking : Bool
  attached : Bool
  connectedListeners : ℕ
  disconnectedListeners : ℕ
  deriving DecidableEq

namespace PendingConnection

/-- A pending connection that a connector has opened. -/
def opened (wiring : Wiring) : PendingConnection where
  wiring := wiring
  replacedAsDuplicate := false
  stopped := false
  handshaking := wiring ≠ .requested
  attached := true
  connectedListeners := 0
  disconnectedListeners := 0

/-- A pending connection for a handshake request of the remote node, the handshaker stopped. -/
def received : PendingConnection where
  wiring := .incoming
  replacedAsDuplicate := false
  stopped := false
  handshaking := false
  attached := false
  connectedListeners := 0
  disconnectedListeners := 0

/-- `replaceAsDuplicate`. -/
def replaceAsDuplicate (pending : PendingConnection) : PendingConnection :=
  { pending with replacedAsDuplicate := true }

/-- The listeners of `onNewConnection`. -/
def listen (pending : PendingConnection) : PendingConnection :=
  { pending with
    connectedListeners := pending.connectedListeners + 1
    disconnectedListeners := pending.disconnectedListeners + 1 }

/-- `stopHandshaker`. -/
def stopHandshaker (pending : PendingConnection) : PendingConnection :=
  { pending with handshaking := false }

/-- `destroy`. -/
def destroy (pending : PendingConnection) : PendingConnection :=
  if pending.stopped then pending
  else
    { pending with
      stopped := true
      attached := false
      connectedListeners := 0
      disconnectedListeners := 0 }

/-- A handshake may still be completed on the pending connection. -/
def completable (pending : PendingConnection) : Bool :=
  match pending.wiring with
  | .outgoing | .incoming => pending.handshaking
  | .requested => pending.attached

end PendingConnection

/-- `ManagedConnection`, with whether it has its listeners. -/
structure ManagedConnection where
  replacedAsDuplicate : Bool
  listening : Bool
  deriving DecidableEq

/-- `OutputBuffer`, with the messages that were given its promise. -/
structure OutputBuffer where
  buffer : List ℕ
  promised : List ℕ
  deriving DecidableEq

/-- `push`. -/
def OutputBuffer.push (output : OutputBuffer) (message : ℕ) : OutputBuffer :=
  ⟨output.buffer ++ [message], output.promised ++ [message]⟩

/-- `Endpoint`. -/
inductive Endpoint
  | connecting (connection : ℕ) (buffer : OutputBuffer)
  | connected (connection : ℕ)
  deriving DecidableEq

/-- `ConnectionManager` towards one remote node, with the pending connections that exist, the
connector's entry for the remote node, how many messages were buffered, which connection was handed
which of them, which promises were resolved and rejected, and whether a listener has thrown. -/
structure ConnectionManager where
  endpoint : Option Endpoint
  pendings : OrderedMap ℕ PendingConnection
  managed : OrderedMap ℕ ManagedConnection
  connecting : Option ℕ
  pushes : ℕ
  flushed : List (ℕ × ℕ)
  resolved : List ℕ
  rejected : List ℕ
  failed : Bool

namespace ConnectionManager

/-- No connection, nothing sent. -/
def start : ConnectionManager := ⟨none, .empty, .empty, none, 0, [], [], [], false⟩

/-- The pending connection of the endpoint. -/
def pendingConnection (state : ConnectionManager) : Option ℕ :=
  match state.endpoint with
  | some (.connecting connection _) => some connection
  | some (.connected _) | none => none

/-- The messages that wait in the buffer of the endpoint. -/
def waiting (state : ConnectionManager) : List ℕ :=
  match state.endpoint with
  | some (.connecting _ output) => output.buffer
  | some (.connected _) | none => []

/-- A pending connection becomes another. -/
def adjustPending (connection : ℕ) (change : PendingConnection → PendingConnection)
    (state : ConnectionManager) : ConnectionManager :=
  { state with pendings := state.pendings.adjust connection change }

/-! ### Connected and disconnected -/

/-- `onConnected`. -/
def onConnected (connection : ℕ) (state : ConnectionManager) : ConnectionManager :=
  let managed := state.managed.set connection ⟨false, true⟩
  match state.endpoint with
  | some (.connecting pendingConnection output) =>
    { state with
      managed := managed
      flushed := state.flushed ++ output.buffer.map fun message ↦ (connection, message)
      resolved := state.resolved ++ output.promised
      pendings := state.pendings.adjust pendingConnection PendingConnection.destroy
      endpoint := some (.connected connection) }
  -- Neither a missing endpoint nor a connected one has a buffer.
  | some (.connected _) | none => { state with managed := managed, failed := true }

/-- `onDisconnected`. -/
def onDisconnected (state : ConnectionManager) : ConnectionManager :=
  match state.endpoint with
  | some (.connecting _ output) =>
    { state with rejected := state.rejected ++ output.promised, endpoint := none }
  | some (.connected _) => { state with endpoint := none }
  | none => state

theorem onConnected_of_connecting {state : ConnectionManager} {pending : ℕ} {output : OutputBuffer}
    (hendpoint : state.endpoint = some (.connecting pending output)) (connection : ℕ) :
    state.onConnected connection =
      { state with
        managed := state.managed.set connection ⟨false, true⟩
        flushed := state.flushed ++ output.buffer.map fun message ↦ (connection, message)
        resolved := state.resolved ++ output.promised
        pendings := state.pendings.adjust pending PendingConnection.destroy
        endpoint := some (.connected connection) } := by
  simp only [onConnected, hendpoint]

theorem onDisconnected_of_connecting {state : ConnectionManager} {pending : ℕ}
    {output : OutputBuffer} (hendpoint : state.endpoint = some (.connecting pending output)) :
    state.onDisconnected =
      { state with rejected := state.rejected ++ output.promised, endpoint := none } := by
  simp only [onDisconnected, hendpoint]

theorem onDisconnected_of_connected {state : ConnectionManager} {connection : ℕ}
    (hendpoint : state.endpoint = some (.connected connection)) :
    state.onDisconnected = { state with endpoint := none } := by
  simp only [onDisconnected, hendpoint]

theorem onDisconnected_of_none {state : ConnectionManager} (hendpoint : state.endpoint = none) :
    state.onDisconnected = state := by
  simp only [onDisconnected, hendpoint]

/-! ### New connections -/

/-- `replaceAsDuplicate` of the connection of an endpoint. -/
def replaceAsDuplicate (endpoint : Endpoint) (state : ConnectionManager) : ConnectionManager :=
  match endpoint with
  | .connecting connection _ =>
    state.adjustPending connection PendingConnection.replaceAsDuplicate
  | .connected connection =>
    { state with managed := state.managed.adjust connection fun old ↦
        { old with replacedAsDuplicate := true } }

/-- The buffer with which an endpoint is replaced. -/
def keptBuffer : Endpoint → OutputBuffer
  | .connecting _ output => output
  | .connected _ => ⟨[], []⟩

/-- `acceptNewConnection`. -/
def acceptNewConnection (offerer : Offerer) (newConnection : ℕ) (state : ConnectionManager) :
    Bool × ConnectionManager :=
  match state.endpoint with
  | none => (true, { state with endpoint := some (.connecting newConnection ⟨[], []⟩) })
  | some endpoint =>
    match offerer with
    | .remoteNode =>
      (true, { state.replaceAsDuplicate endpoint with
        endpoint := some (.connecting newConnection (keptBuffer endpoint)) })
    | .localNode => (false, state)

/-- `onNewConnection`. -/
def onNewConnection (offerer : Offerer) (connection : ℕ) (state : ConnectionManager) :
    Bool × ConnectionManager :=
  let (accepted, after) := state.acceptNewConnection offerer connection
  if accepted then (true, after.adjustPending connection PendingConnection.listen)
  else (false, after)

/-! ### Events of a pending connection -/

/-- `delFunc`. -/
def delFunc (connection : ℕ) (state : ConnectionManager) : ConnectionManager :=
  { state with
    connecting := none
    pendings := state.pendings.adjust connection fun pending ↦ { pending with attached := false } }

/-- The connector's listener on a pending connection, while it is there. -/
def delFuncListener (connection : ℕ) (pending : PendingConnection) (state : ConnectionManager) :
    ConnectionManager :=
  if pending.attached then state.delFunc connection else state

/-- `emit('connected')`: the listeners in the order in which they were added. -/
def emitConnected (connection managedConnection : ℕ) (pending : PendingConnection)
    (state : ConnectionManager) : ConnectionManager :=
  let detached := (state.delFuncListener connection pending).adjustPending connection
    fun current ↦ { current with connectedListeners := 0 }
  (onConnected managedConnection)^[pending.connectedListeners] detached

/-- `emit('disconnected')`: the listeners in the order in which they were added. -/
def emitDisconnected (connection : ℕ) (pending : PendingConnection) (state : ConnectionManager) :
    ConnectionManager :=
  let stopped := state.adjustPending connection PendingConnection.stopHandshaker
  let detached := (stopped.delFuncListener connection pending).adjustPending connection
    fun current ↦ { current with disconnectedListeners := 0 }
  onDisconnected^[pending.disconnectedListeners] detached

/-- `onHandshakeCompleted`. -/
def onHandshakeCompleted (connection managedConnection : ℕ) (state : ConnectionManager) :
    ConnectionManager :=
  match state.pendings.get? connection with
  | some pending =>
    if pending.replacedAsDuplicate then state
    else state.emitConnected connection managedConnection pending
  | none => state

/-- `close`. -/
def close (connection : ℕ) (state : ConnectionManager) : ConnectionManager :=
  match state.pendings.get? connection with
  | some pending =>
    if pending.stopped then state
    else
      let stopped := state.adjustPending connection fun current ↦ { current with stopped := true }
      if pending.replacedAsDuplicate then stopped
      else stopped.emitDisconnected connection pending
  | none => state

/-- A connector's `connect`: the pending connection it has for the remote node, or a new one. -/
def createConnection (wiring : Wiring) (connection : ℕ) (state : ConnectionManager) :
    Option (ℕ × ConnectionManager) :=
  match state.connecting with
  | some existing => some (existing, state)
  | none =>
    if state.pendings.has connection then none
    else
      some (connection,
        { state with
          pendings := state.pendings.set connection (PendingConnection.opened wiring)
          connecting := some connection })

/-- A message is pushed to the buffer of the endpoint. -/
def push (state : ConnectionManager) : ConnectionManager :=
  match state.endpoint with
  | some (.connecting connection output) =>
    { state with
      pushes := state.pushes + 1
      endpoint := some (.connecting connection (output.push state.pushes)) }
  | some (.connected _) | none => state

theorem push_of_connecting {state : ConnectionManager} {pending : ℕ} {output : OutputBuffer}
    (hendpoint : state.endpoint = some (.connecting pending output)) :
    state.push =
      { state with
        pushes := state.pushes + 1
        endpoint := some (.connecting pending (output.push state.pushes)) } := by
  simp only [push, hendpoint]

/-! ### The events -/

/-- What happens to a node and its connections to the remote node. A new pending connection of
`send` or of a request of the remote node is the given one. -/
inductive Event
  /-- `send`. -/
  | send (connect bufferWhileConnecting : Bool) (wiring : Wiring) (connection : ℕ)
  /-- The remote node requests a connection, or offers one, and the connector has none. -/
  | connectionRequested (wiring : Wiring) (connection : ℕ)
  /-- A handshake request on a connection that the remote node has opened. -/
  | handshakeRequest (connection managedConnection : ℕ)
  /-- The handshake of a pending connection is completed. -/
  | handshakeCompleted (connection managedConnection : ℕ)
  /-- The handshake of a pending connection is rejected here. -/
  | rejectHandshake (connection : ℕ)
  /-- The remote node rejects the handshake of a pending connection with an error that the
  handshaker does not leave to the remote node. -/
  | handshakeFailed (connection : ℕ)
  /-- The socket of a pending connection is disconnected. -/
  | socketDisconnected (connection : ℕ)
  /-- A pending connection is closed, by its timer or a caller. -/
  | close (connection : ℕ)
  /-- A managed connection is disconnected. -/
  | disconnected (managedConnection : ℕ)
  deriving DecidableEq

/-- The end of `send`: an endpoint that is connected takes the message, another one may buffer it. -/
def sendOrBuffer (bufferWhileConnecting : Bool) (state : ConnectionManager) : ConnectionManager :=
  if bufferWhileConnecting then state.push else state

/-- `send`. Unless the endpoint is connected, it throws when it may not connect. -/
def send (offerer : Offerer) (connect bufferWhileConnecting : Bool) (wiring : Wiring)
    (connection : ℕ) (state : ConnectionManager) : Option ConnectionManager :=
  match state.endpoint with
  | none =>
    if connect then
      (state.createConnection wiring connection).map fun created ↦
        (created.2.onNewConnection offerer created.1).2.sendOrBuffer bufferWhileConnecting
    else some state
  | some _ => some (if connect then state.sendOrBuffer bufferWhileConnecting else state)

/-- A request or an offer of the remote node. -/
def connectionRequested (offerer : Offerer) (wiring : Wiring) (connection : ℕ)
    (state : ConnectionManager) : Option ConnectionManager :=
  if state.connecting.isSome then none
  else
    (state.createConnection wiring connection).map fun created ↦
      (created.2.onNewConnection offerer created.1).2

/-- A request to the remote node is open: a handshake request is taken for its answer. -/
def requestOngoing (state : ConnectionManager) : Bool :=
  match state.connecting with
  | some existing =>
    (state.pendings.get? existing).any fun pending ↦ pending.wiring = .requested
  | none => false

/-- A handshake request on a new connection: `acceptHandshake`, or `rejectHandshake` of the pending
connection that was made for it. -/
def handshakeRequest (offerer : Offerer) (connection managedConnection : ℕ)
    (state : ConnectionManager) : Option ConnectionManager :=
  if state.pendings.has connection ∨ state.managed.has managedConnection ∨ state.requestOngoing then
    none
  else
    let created := { state with pendings := state.pendings.set connection .received }
    let (accepted, after) := created.onNewConnection offerer connection
    some (if accepted then after.onHandshakeCompleted connection managedConnection
      else after.adjustPending connection PendingConnection.destroy)

/-- The listener of a completed handshake. -/
def handshakeCompleted (connection managedConnection : ℕ) (state : ConnectionManager) :
    Option ConnectionManager :=
  match state.pendings.get? connection with
  | some pending =>
    if pending.completable = false ∨ state.managed.has managedConnection then none
    else
      match pending.wiring with
      | .outgoing =>
        some ((state.onHandshakeCompleted connection managedConnection).adjustPending connection
          PendingConnection.stopHandshaker)
      | .incoming =>
        some (((state.adjustPending connection
          PendingConnection.stopHandshaker).onHandshakeCompleted connection
            managedConnection).delFunc connection)
      | .requested => some (state.onHandshakeCompleted connection managedConnection)
  | none => none

/-- `rejectHandshake` of a pending connection on which a handshake could be accepted, and the
connector's `delFunc` behind it. -/
def rejectHandshake (connection : ℕ) (state : ConnectionManager) : Option ConnectionManager :=
  match state.pendings.get? connection with
  | some pending =>
    if pending.completable = false ∨ pending.wiring = .outgoing then none
    else
      some ((state.adjustPending connection fun current ↦
        current.stopHandshaker.destroy).delFunc connection)
  | none => none

/-- The listener of a failed handshake, for the errors on which it closes. -/
def handshakeFailed (connection : ℕ) (state : ConnectionManager) : Option ConnectionManager :=
  match state.pendings.get? connection with
  | some pending =>
    if pending.handshaking ∧ pending.wiring = .outgoing then
      some ((state.close connection).adjustPending connection PendingConnection.stopHandshaker)
    else none
  | none => none

/-- The listeners of the socket of a pending connection: the handshaker's, then `delFunc`. -/
def socketDisconnected (connection : ℕ) (state : ConnectionManager) : Option ConnectionManager :=
  match state.pendings.get? connection with
  | some pending =>
    if pending.wiring = .requested then none
    else
      let closed := if pending.handshaking then
          (state.close connection).adjustPending connection PendingConnection.stopHandshaker
        else state
      some (match closed.pendings.get? connection with
        | some current => closed.delFuncListener connection current
        | none => closed)
  | none => none

/-- `onDisconnected` of a managed connection, which loses its listeners. -/
def disconnected (connection : ℕ) (state : ConnectionManager) : Option ConnectionManager :=
  match state.managed.get? connection with
  | some managedConnection =>
    let silent := { state with managed := state.managed.adjust connection fun current ↦
      { current with listening := false } }
    some (if managedConnection.listening ∧ managedConnection.replacedAsDuplicate = false then
      silent.onDisconnected else silent)
  | none => none

/-- The state after an event, or `none` when it cannot happen. -/
def next (offerer : Offerer) (state : ConnectionManager) : Event → Option ConnectionManager
  | .send connect bufferWhileConnecting wiring connection =>
    state.send offerer connect bufferWhileConnecting wiring connection
  | .connectionRequested wiring connection => state.connectionRequested offerer wiring connection
  | .handshakeRequest connection managedConnection =>
    state.handshakeRequest offerer connection managedConnection
  | .handshakeCompleted connection managedConnection =>
    state.handshakeCompleted connection managedConnection
  | .rejectHandshake connection => state.rejectHandshake connection
  | .handshakeFailed connection => state.handshakeFailed connection
  | .socketDisconnected connection => state.socketDisconnected connection
  | .close connection =>
    if state.pendings.has connection then some (state.close connection) else none
  | .disconnected managedConnection => state.disconnected managedConnection

end ConnectionManager

end PomboStorageNode.Dht
