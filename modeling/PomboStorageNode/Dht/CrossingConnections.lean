import PomboStorageNode.Dht.CrossingEvents

/-!
# Two nodes that open connections to each other

The state is the two nodes and the connections they have opened to each other, each with what of it
is in flight: its handshake request, the response, or the closing of a refused connection. They
arrive in any order. What holds of one node alone (`NodeFits`) says which connections it waits for,
and is kept by every event of the node and by what happens to connections elsewhere.
-/

set_option autoImplicit false

namespace PomboStorageNode.Dht

open Library

/-! ### Two nodes -/

/-- The two nodes. -/
inductive Side
  | first
  | second
  deriving DecidableEq

/-- The other node. -/
def Side.other : Side → Side
  | .first => .second
  | .second => .first

@[simp] theorem Side.other_other (side : Side) : side.other.other = side := by
  cases side <;> rfl

@[simp] theorem Side.other_ne (side : Side) : side.other ≠ side := by
  cases side <;> decide

@[simp] theorem Side.ne_other (side : Side) : side ≠ side.other := side.other_ne.symm

theorem Side.eq_or_eq_other (side other : Side) : side = other ∨ side = other.other := by
  cases side <;> cases other <;> decide

/-- How far a connection has come: its request is in flight, or the response that accepts it, or the
one that refuses it with the closing behind it, or only the closing; it is open, or closed. -/
inductive Phase
  | requesting
  | accepted
  | refused
  | closing
  | established
  | closed
  deriving DecidableEq

/-- Something of the connection is in flight. -/
def Phase.inFlight : Phase → Bool
  | .requesting | .accepted | .refused | .closing => true
  | .established | .closed => false

/-- The connection was refused, and the node that opened it has not yet seen it closed. -/
def Phase.refusing : Phase → Bool
  | .refused | .closing => true
  | .requesting | .accepted | .established | .closed => false

/-- The connection is not accepted, or no longer there. -/
def Phase.pendingOrGone : Phase → Bool
  | .requesting | .refused | .closing | .closed => true
  | .accepted | .established => false

/-- A connection that a node has opened to the other. -/
structure Attempt where
  dialer : Side
  phase : Phase
  deriving DecidableEq

/-- Two nodes, and the connections they have opened to each other. A connection has the same number
on both nodes. -/
structure Crossing where
  nodes : Side → ConnectionManager
  attempts : OrderedMap ℕ Attempt

namespace Crossing

/-- No connection, nothing sent. -/
def start : Crossing := ⟨fun _ ↦ .start, .empty⟩

/-- What can happen. A node that sends opens the given connection if it has none. -/
inductive Event
  | send (side : Side) (bufferWhileConnecting : Bool) (connection : ℕ)
  | requestArrives (connection : ℕ)
  | responseArrives (connection : ℕ)
  | closingArrives (connection : ℕ)

/-- What a node becomes by an event. An event for which it has no listener changes nothing. -/
def perform (offerer : Side → Offerer) (side : Side) (event : ConnectionManager.Event)
    (state : Crossing) : ConnectionManager :=
  ((state.nodes side).next (offerer side) event).getD (state.nodes side)

/-- A node and the phase of a connection change. -/
def move (side : Side) (node : ConnectionManager) (connection : ℕ) (phase : Phase)
    (state : Crossing) : Crossing where
  nodes := Function.update state.nodes side node
  attempts := state.attempts.adjust connection fun attempt ↦ { attempt with phase := phase }

/-- A node sends. -/
def send (offerer : Side → Offerer) (side : Side) (bufferWhileConnecting : Bool) (connection : ℕ)
    (state : Crossing) : Option Crossing :=
  if state.attempts.has connection then none
  else
    let node := state.perform offerer side
      (.send true bufferWhileConnecting .outgoing connection)
    some
      { nodes := Function.update state.nodes side node
        attempts := if node.connecting = some connection then
            state.attempts.set connection ⟨side, .requesting⟩
          else state.attempts }

/-- A handshake request arrives, and the node accepts it or refuses it. -/
def requestArrives (offerer : Side → Offerer) (connection : ℕ) (state : Crossing) :
    Option Crossing :=
  match state.attempts.get? connection with
  | some ⟨dialer, .requesting⟩ =>
    let node := state.perform offerer dialer.other (.handshakeRequest connection connection)
    some (state.move dialer.other node connection
      (if node.endpoint = some (.connected connection) then .accepted else .refused))
  | _ => none

/-- The response to a handshake request arrives. On a refusal the node waits for the other end to
close the connection. -/
def responseArrives (offerer : Side → Offerer) (connection : ℕ) (state : Crossing) :
    Option Crossing :=
  match state.attempts.get? connection with
  | some ⟨dialer, .accepted⟩ =>
    some (state.move dialer
      (state.perform offerer dialer (.handshakeCompleted connection connection)) connection
      .established)
  | some ⟨dialer, .refused⟩ =>
    some (state.move dialer (state.nodes dialer) connection .closing)
  | _ => none

/-- A refused connection is closed. -/
def closingArrives (offerer : Side → Offerer) (connection : ℕ) (state : Crossing) :
    Option Crossing :=
  match state.attempts.get? connection with
  | some ⟨dialer, phase⟩ =>
    if phase.refusing then
      some (state.move dialer (state.perform offerer dialer (.socketDisconnected connection))
        connection .closed)
    else none
  | none => none

/-- The state after an event, or `none` when it cannot happen. -/
def step (offerer : Side → Offerer) (state : Crossing) : Event → Option Crossing
  | .send side bufferWhileConnecting connection =>
    state.send offerer side bufferWhileConnecting connection
  | .requestArrives connection => state.requestArrives offerer connection
  | .responseArrives connection => state.responseArrives offerer connection
  | .closingArrives connection => state.closingArrives offerer connection

/-- Nothing is in flight. -/
def Quiescent (state : Crossing) : Prop :=
  ∀ connection attempt, state.attempts.get? connection = some attempt →
    attempt.phase.inFlight = false

theorem quiescent_iff {state : Crossing} : Quiescent state ↔
    ∀ entry ∈ state.attempts.entries, entry.2.phase.inFlight = false := by
  constructor
  · rintro hquiet ⟨connection, attempt⟩ hentry
    exact hquiet connection attempt (OrderedMap.get?_eq_some_iff.mpr hentry)
  · intro hall connection attempt hattempt
    exact hall (connection, attempt) (OrderedMap.get?_eq_some_iff.mp hattempt)

instance (state : Crossing) : Decidable (Quiescent state) := decidable_of_iff _ quiescent_iff.symm

/-- A node waits for a connection that the other one has refused. -/
def WaitsForRefused (state : Crossing) (side : Side) : Prop :=
  ∃ connection phase, state.attempts.get? connection = some ⟨side, phase⟩ ∧
    phase.refusing = true ∧ (state.nodes side).pendingConnection = some connection

/-! ### What holds of one node -/

section Node

variable {side dialer : Side} {node after : ConnectionManager} {attempts later : OrderedMap ℕ Attempt}
  {connection : ℕ}

/-- The node has an endpoint that is connected. -/
def Connected (node : ConnectionManager) : Prop :=
  ∃ managed, node.endpoint = some (.connected managed)

/-- What holds of a node and the connections: what it waits for and what its connector has are
connections of its own in flight; such a connection has its handshaker, and the node waits for it or
is connected; and the node has not seen a connection whose request has not arrived. -/
structure NodeFits (side : Side) (node : ConnectionManager) (attempts : OrderedMap ℕ Attempt) :
    Prop where
  invariant : ConnectionManager.Invariant node
  entry : ∀ connection, node.connecting = some connection →
    ∃ phase, attempts.get? connection = some ⟨side, phase⟩ ∧ phase.inFlight = true
  current : ∀ connection, node.pendingConnection = some connection →
    ∃ phase, attempts.get? connection = some ⟨side, phase⟩ ∧ phase.inFlight = true
  handshaking : ∀ connection phase, attempts.get? connection = some ⟨side, phase⟩ →
    phase.inFlight = true →
      (∃ pending, node.pendings.get? connection = some pending ∧ pending.wiring = .outgoing ∧
        pending.handshaking = true) ∧ node.managed.has connection = false
  waiting : ∀ connection phase, attempts.get? connection = some ⟨side, phase⟩ →
    phase.inFlight = true → node.pendingConnection = some connection ∨ Connected node
  unseen : ∀ connection, attempts.get? connection = none ∨
    attempts.get? connection = some ⟨side.other, .requesting⟩ →
      node.pendings.has connection = false ∧ node.managed.has connection = false

/-- The phase of a connection changes, of the node's own one in flight to another in flight. -/
theorem NodeFits.setPhase {old new : Phase} (hfits : NodeFits side node attempts)
    (hattempt : attempts.get? connection = some ⟨dialer, old⟩)
    (hflight : dialer = side → old.inFlight = true ∧ new.inFlight = true)
    (hnew : new ≠ .requesting) :
    NodeFits side node
      (attempts.adjust connection fun attempt ↦ { attempt with phase := new }) := by
  have hself : (attempts.adjust connection fun attempt ↦
      { attempt with phase := new }).get? connection = some ⟨dialer, new⟩ := by
    rw [OrderedMap.get?_adjust_self, hattempt, Option.map_some]
  have hkeeps : ∀ other, (∃ phase, attempts.get? other = some ⟨side, phase⟩ ∧
      phase.inFlight = true) → ∃ phase, (attempts.adjust connection fun attempt ↦
        { attempt with phase := new }).get? other = some ⟨side, phase⟩ ∧ phase.inFlight = true := by
    rintro other ⟨phase, hother, hphase⟩
    by_cases hsame : other = connection
    · rw [hsame, hattempt] at hother
      cases hother
      exact ⟨new, hsame ▸ hself, (hflight rfl).2⟩
    · exact ⟨phase, (OrderedMap.get?_adjust_of_ne _ _ hsame).trans hother, hphase⟩
  have hbefore : ∀ other phase, (attempts.adjust connection fun attempt ↦
      { attempt with phase := new }).get? other = some ⟨side, phase⟩ → phase.inFlight = true →
        ∃ phase, attempts.get? other = some ⟨side, phase⟩ ∧ phase.inFlight = true := by
    intro other phase hother hphase
    by_cases hsame : other = connection
    · rw [hsame, hself] at hother
      cases hother
      exact ⟨old, hsame ▸ hattempt, (hflight rfl).1⟩
    · rw [OrderedMap.get?_adjust_of_ne _ _ hsame] at hother
      exact ⟨phase, hother, hphase⟩
  constructor
  · exact hfits.invariant
  · exact fun other hentry ↦ hkeeps other (hfits.entry other hentry)
  · exact fun other hcurrent ↦ hkeeps other (hfits.current other hcurrent)
  · intro other phase hother hphase
    obtain ⟨former, hformer, hflying⟩ := hbefore other phase hother hphase
    exact hfits.handshaking other former hformer hflying
  · intro other phase hother hphase
    obtain ⟨former, hformer, hflying⟩ := hbefore other phase hother hphase
    exact hfits.waiting other former hformer hflying
  · intro other hunseen
    by_cases hsame : other = connection
    · rw [hsame, hself] at hunseen
      rcases hunseen with himpossible | hrequesting
      · cases himpossible
      · cases hrequesting
        exact absurd rfl hnew
    · rw [OrderedMap.get?_adjust_of_ne _ _ hsame] at hunseen
      exact hfits.unseen other hunseen

/-- Assumes: an event of a connection that is then not one of the node's own in flight, nor one that
the node has not seen. -/
theorem NodeFits.event (hfits : NodeFits side node attempts)
    (hinvariant : ConnectionManager.Invariant after)
    (helsewhere : ConnectionManager.Elsewhere connection node after)
    (hentry : after.connecting ≠ some connection)
    (hothers : ∀ other, other ≠ connection → later.get? other = attempts.get? other)
    (hseen : later.get? connection ≠ none ∧
      later.get? connection ≠ some ⟨side.other, .requesting⟩)
    (hover : ∀ phase, later.get? connection = some ⟨side, phase⟩ → phase.inFlight = false)
    (hcurrent : ∀ other, after.pendingConnection = some other →
      other ≠ connection ∧ node.pendingConnection = some other)
    (hwaiting : ∀ other, other ≠ connection →
      node.pendingConnection = some other ∨ Connected node →
        after.pendingConnection = some other ∨ Connected after) :
    NodeFits side after later := by
  have hown : ∀ other phase, later.get? other = some ⟨side, phase⟩ → phase.inFlight = true →
      other ≠ connection := by
    rintro other phase hother hphase rfl
    rw [hover phase hother] at hphase
    cases hphase
  constructor
  · exact hinvariant
  · intro other hother
    have hne : other ≠ connection := by
      rintro rfl
      exact hentry hother
    rw [hothers other hne]
    exact hfits.entry other (helsewhere.entry other hne hother)
  · intro other hother
    obtain ⟨hne, hbefore⟩ := hcurrent other hother
    rw [hothers other hne]
    exact hfits.current other hbefore
  · intro other phase hother hphase
    have hne := hown other phase hother hphase
    rw [hothers other hne] at hother
    obtain ⟨⟨pending, hpending, hwiring, hhandshaking⟩, hmanaged⟩ :=
      hfits.handshaking other phase hother hphase
    obtain ⟨current, hfound, hwiring', hhandshaking'⟩ :=
      helsewhere.kept other pending hne hpending
    exact ⟨⟨current, hfound, hwiring'.trans hwiring, hhandshaking'.trans hhandshaking⟩,
      (helsewhere.managed other hne).trans hmanaged⟩
  · intro other phase hother hphase
    have hne := hown other phase hother hphase
    rw [hothers other hne] at hother
    exact hwaiting other hne (hfits.waiting other phase hother hphase)
  · intro other hunseen
    have hne : other ≠ connection := by
      rintro rfl
      exact hunseen.elim hseen.1 hseen.2
    rw [hothers other hne] at hunseen
    obtain ⟨hpendings, hmanaged⟩ := hfits.unseen other hunseen
    exact ⟨(helsewhere.has other hne).trans hpendings, (helsewhere.managed other hne).trans hmanaged⟩

theorem pendingConnection_of_connected {managed : ℕ}
    (hconnected : node.endpoint = some (.connected managed)) : node.pendingConnection = none := by
  simp only [ConnectionManager.pendingConnection, hconnected]

/-- What the connector has was opened by `createOutgoingHandshaker`. -/
theorem NodeFits.requestOngoing (hfits : NodeFits side node attempts) :
    node.requestOngoing = false := by
  unfold ConnectionManager.requestOngoing
  cases hentry : node.connecting with
  | none => rfl
  | some existing =>
    obtain ⟨phase, hattempt, hphase⟩ := hfits.entry existing hentry
    obtain ⟨⟨pending, hpending, hwiring, -⟩, -⟩ :=
      hfits.handshaking existing phase hattempt hphase
    simp [hpending, hwiring]

end Node

end Crossing

end PomboStorageNode.Dht
