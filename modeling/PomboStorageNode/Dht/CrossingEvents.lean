import PomboStorageNode.Dht.ConnectionBuffers

/-!
# A node in a crossing

What one node does when it sends, when a handshake request of the other node arrives, when its own
one is answered, and when a connection of its own that was refused is closed: the endpoint behind
the event, and what the event leaves of all other connections (`Elsewhere`).
-/

set_option autoImplicit false

namespace PomboStorageNode.Dht

open Library

namespace ConnectionManager

variable {state middle after : ConnectionManager} {connection other : ℕ}

/-! ### What an event leaves of other connections -/

/-- An event of a connection: other pending connections keep their handshakers, other managed
connections stay, and the connector gets no other entry. -/
structure Elsewhere (connection : ℕ) (before after : ConnectionManager) : Prop where
  has : ∀ other, other ≠ connection → after.pendings.has other = before.pendings.has other
  kept : ∀ other pending, other ≠ connection → before.pendings.get? other = some pending →
    ∃ current, after.pendings.get? other = some current ∧ current.wiring = pending.wiring ∧
      current.handshaking = pending.handshaking
  managed : ∀ other, other ≠ connection → after.managed.has other = before.managed.has other
  entry : ∀ other, other ≠ connection → after.connecting = some other →
    before.connecting = some other

theorem Elsewhere.of_same
    (hpendings : ∀ other, other ≠ connection →
      after.pendings.get? other = state.pendings.get? other)
    (hmanaged : ∀ other, other ≠ connection → after.managed.has other = state.managed.has other)
    (hentry : ∀ other, other ≠ connection → after.connecting = some other →
      state.connecting = some other) : Elsewhere connection state after where
  has := fun other hother ↦ by rw [OrderedMap.has, OrderedMap.has, hpendings other hother]
  kept := fun other pending hother hpending ↦
    ⟨pending, (hpendings other hother).trans hpending, rfl, rfl⟩
  managed := hmanaged
  entry := hentry

theorem Elsewhere.trans (hfirst : Elsewhere connection state middle)
    (hsecond : Elsewhere connection middle after) : Elsewhere connection state after where
  has := fun other hother ↦ (hsecond.has other hother).trans (hfirst.has other hother)
  kept := by
    intro other pending hother hpending
    obtain ⟨between, hbetween, hwiring, hhandshaking⟩ :=
      hfirst.kept other pending hother hpending
    obtain ⟨current, hcurrent, hwiring', hhandshaking'⟩ :=
      hsecond.kept other between hother hbetween
    exact ⟨current, hcurrent, hwiring'.trans hwiring, hhandshaking'.trans hhandshaking⟩
  managed := fun other hother ↦ (hsecond.managed other hother).trans (hfirst.managed other hother)
  entry := fun other hother hentry ↦
    hfirst.entry other hother (hsecond.entry other hother hentry)

theorem Quiet.elsewhere {change : PendingConnection → PendingConnection}
    (hquiet : Quiet connection change state after) : Elsewhere connection state after :=
  .of_same hquiet.others (fun _ _ ↦ by rw [hquiet.managed]) fun other _ ↦ hquiet.entry other

/-- Assumes: an endpoint with a pending connection. -/
theorem elsewhere_onConnected {output : OutputBuffer}
    (hendpoint : state.endpoint = some (.connecting connection output)) :
    Elsewhere connection state (state.onConnected connection) := by
  rw [onConnected_of_connecting hendpoint]
  refine .of_same (fun other hother ↦ OrderedMap.get?_adjust_of_ne _ _ hother)
    (fun other hother ↦ ?_) fun _ _ hentry ↦ hentry
  unfold OrderedMap.has
  rw [OrderedMap.get?_set_of_ne _ _ hother]

theorem elsewhere_onDisconnected : Elsewhere connection state state.onDisconnected := by
  rcases hendpoint : state.endpoint with _ | ⟨current, output⟩ | current
  · rw [onDisconnected_of_none hendpoint]
    exact .of_same (fun _ _ ↦ rfl) (fun _ _ ↦ rfl) fun _ _ hentry ↦ hentry
  · rw [onDisconnected_of_connecting hendpoint]
    exact .of_same (fun _ _ ↦ rfl) (fun _ _ ↦ rfl) fun _ _ hentry ↦ hentry
  · rw [onDisconnected_of_connected hendpoint]
    exact .of_same (fun _ _ ↦ rfl) (fun _ _ ↦ rfl) fun _ _ hentry ↦ hentry

theorem Accepts.elsewhere (haccepts : Accepts connection state after) :
    Elsewhere connection state after where
  has := by
    intro other hother
    unfold OrderedMap.has
    by_cases hold : state.pendingConnection = some other
    · rw [haccepts.old other hother hold, Option.isSome_map]
    · rw [haccepts.others other hother hold]
  kept := by
    intro other pending hother hpending
    by_cases hold : state.pendingConnection = some other
    · exact ⟨pending.replaceAsDuplicate, by rw [haccepts.old other hother hold, hpending]; rfl, rfl,
        rfl⟩
    · exact ⟨pending, (haccepts.others other hother hold).trans hpending, rfl, rfl⟩
  managed := fun other _ ↦ haccepts.managed other
  entry := fun other _ hentry ↦ haccepts.connecting ▸ hentry

/-! ### The events of a crossing -/

/-- Sending to an endpoint changes at most its buffer. -/
theorem sendOrBuffer_same (buffering : Bool) (state : ConnectionManager) :
    (state.sendOrBuffer buffering).pendings = state.pendings ∧
      (state.sendOrBuffer buffering).managed = state.managed ∧
      (state.sendOrBuffer buffering).connecting = state.connecting ∧
      (state.sendOrBuffer buffering).pendingConnection = state.pendingConnection ∧
      ∀ managed, (state.sendOrBuffer buffering).endpoint = some (.connected managed) ↔
        state.endpoint = some (.connected managed) := by
  unfold sendOrBuffer
  split_ifs
  · rcases hendpoint : state.endpoint with _ | ⟨current, output⟩ | current
    · simp [push, hendpoint]
    · simp [push, hendpoint, pendingConnection]
    · simp [push, hendpoint]
  · exact ⟨rfl, rfl, rfl, rfl, fun _ ↦ Iff.rfl⟩

/-- Assumes: the invariant, no endpoint, and no entry of the connector. Sending opens a new pending
connection. -/
theorem Invariant.send_opens (offerer : Offerer) (buffering : Bool) (hinvariant : Invariant state)
    (hendpoint : state.endpoint = none) (hentry : state.connecting = none)
    (hnew : state.pendings.has connection = false) :
    ∃ after, state.next offerer (.send true buffering .outgoing connection) = some after ∧
      Invariant after ∧ Elsewhere connection state after ∧
      after.pendingConnection = some connection ∧ after.connecting = some connection ∧
      after.managed.has connection = state.managed.has connection ∧
      ∃ pending, after.pendings.get? connection = some pending ∧ pending.wiring = .outgoing ∧
        pending.handshaking = true := by
  have hcreated : state.createConnection .outgoing connection = some (connection,
      { state with
        pendings := state.pendings.set connection (PendingConnection.opened .outgoing)
        connecting := some connection }) := by
    simp only [ConnectionManager.createConnection, hentry, hnew, Bool.false_eq_true, if_false]
  have hunreplaced : state.entryReplaced = false := by simp only [entryReplaced, hentry]
  obtain ⟨hsame, haccepts, hafter⟩ :=
    hinvariant.connect offerer hendpoint hcreated
  have hwaits := hafter hunreplaced
  obtain ⟨output, hconnecting, -, -⟩ := haccepts.endpoint
  have hopened : Elsewhere connection state
      { state with
        pendings := state.pendings.set connection (PendingConnection.opened .outgoing)
        connecting := some connection } := by
    refine .of_same (fun other hother ↦ OrderedMap.get?_set_of_ne _ _ hother) (fun _ _ ↦ rfl) ?_
    exact fun other hother hafter ↦ absurd (Option.some.inj hafter).symm hother
  obtain ⟨hpendings, hmanaged, hentry', hpending, -⟩ :=
    sendOrBuffer_same buffering (ConnectionManager.onNewConnection offerer connection { state with
      pendings := state.pendings.set connection (PendingConnection.opened .outgoing)
      connecting := some connection }).2
  refine ⟨_, ?_, hwaits.sendOrBuffer hconnecting buffering, (hopened.trans haccepts.elsewhere).trans
    (.of_same (fun _ _ ↦ by rw [hpendings]) (fun _ _ ↦ by rw [hmanaged])
      fun _ _ h ↦ hentry' ▸ h), ?_, ?_, ?_, ?_⟩
  · simp only [ConnectionManager.next, ConnectionManager.send, hendpoint, if_true, hcreated,
      Option.map_some]
  · exact hpending.trans (pendingConnection_of_connecting hconnecting)
  · exact hentry'.trans haccepts.connecting
  · rw [hmanaged]
    exact haccepts.managed connection
  · refine ⟨(PendingConnection.opened .outgoing).listen, ?_, rfl, rfl⟩
    rw [hpendings, haccepts.own, OrderedMap.get?_set_self, Option.map_some]

/-- Assumes: an endpoint. Sending changes at most its buffer. -/
theorem send_same (offerer : Offerer) (hendpoint : state.endpoint ≠ none) (buffering : Bool)
    (connection : ℕ) : state.next offerer (.send true buffering .outgoing connection) =
      some (state.sendOrBuffer buffering) := by
  rw [next, send]
  cases hsome : state.endpoint with
  | none => exact absurd hsome hendpoint
  | some endpoint => simp only [if_true]

/-- Assumes: the invariant, and an endpoint with a pending connection of which nobody but the manager
hears. When its handshake is completed, other connections stay. -/
theorem Invariant.elsewhere_complete {output : OutputBuffer} (hinvariant : Invariant state)
    (hendpoint : state.endpoint = some (.connecting connection output)) :
    Elsewhere connection state (state.onHandshakeCompleted connection connection) ∧
      (state.onHandshakeCompleted connection connection).connecting ≠ some connection := by
  have hcurrent := pendingConnection_of_connecting hendpoint
  obtain ⟨pending, hpending⟩ := Option.isSome_iff_exists.mp
    (hinvariant.present connection (.inl hcurrent))
  obtain ⟨-, hnew, hlisteners, -⟩ :=
    (hinvariant.fits connection pending hpending).current hcurrent
  obtain ⟨middle, hcomplete, hquiet, hentry⟩ := onHandshakeCompleted_eq connection hpending hnew
  have hmiddle : middle.endpoint = some (.connecting connection output) :=
    hquiet.endpoint.trans hendpoint
  rw [hcomplete, hlisteners, Function.iterate_one]
  have hgone := hinvariant.entry_ne hpending hquiet hentry
  refine ⟨hquiet.elsewhere.trans (elsewhere_onConnected hmiddle), ?_⟩
  rw [onConnected_of_connecting hmiddle]
  exact hgone

/-- Assumes: the invariant, and a request on a connection that is new to the node. It is taken if
the node has no endpoint or the remote node offers, and refused otherwise. -/
theorem Invariant.takes_request (offerer : Offerer) (hinvariant : Invariant state)
    (hnew : state.pendings.has connection = false) (hunmanaged : state.managed.has connection = false)
    (hongoing : state.requestOngoing = false) :
    ∃ after, state.next offerer (.handshakeRequest connection connection) = some after ∧
      Invariant after ∧ Elsewhere connection state after ∧
      after.connecting ≠ some connection ∧
      (state.endpoint = none ∨ offerer = .remoteNode →
        after.endpoint = some (.connected connection)) ∧
      (state.endpoint ≠ none → offerer = .localNode → after.endpoint = state.endpoint) := by
  have hcreated := hinvariant.created state.connecting hnew fresh_received
    fun other hentry ↦ .inl hentry
  have hpending : (state.pendings.set connection PendingConnection.received).get? connection =
      some PendingConnection.received := OrderedMap.get?_set_self _ _ _
  have hother : ∀ other, state.pendingConnection = some other ∨ state.connecting = some other →
      other ≠ connection := by
    rintro other hpresent rfl
    rw [hinvariant.present other hpresent] at hnew
    cases hnew
  have hopened : Elsewhere connection state
      { state with pendings := state.pendings.set connection PendingConnection.received } :=
    .of_same (fun other hne ↦ OrderedMap.get?_set_of_ne _ _ hne) (fun _ _ ↦ rfl)
      fun _ _ hentry ↦ hentry
  have hguard : ¬(state.pendings.has connection = true ∨ state.managed.has connection = true ∨
      state.requestOngoing = true) := by
    simp [hnew, hunmanaged, hongoing]
  rcases hcreated.onNewConnection offerer
      (fun hcurrent ↦ hother connection (.inl hcurrent) rfl) with
    ⟨haccepts, haccepted, hwhy⟩ | ⟨hrefused, hnot, hsome, hlocal⟩
  · have hwaits := hcreated.accepts hpending fresh_received haccepts
    obtain ⟨output, hendpoint, -, -⟩ := haccepts.endpoint
    obtain ⟨hafter, hconnected, -, -⟩ := hwaits.complete_own hendpoint connection
    obtain ⟨helsewhere, hentry⟩ := hwaits.elsewhere_complete hendpoint
    refine ⟨_, ?_, hafter, (hopened.trans haccepts.elsewhere).trans helsewhere, hentry,
      fun _ ↦ hconnected, fun hsome hlocal ↦ ?_⟩
    · rw [ConnectionManager.next, ConnectionManager.handshakeRequest, if_neg hguard]
      simp only [haccepted, if_true]
    · rcases hwhy with hnone | hremote
      · exact absurd hnone hsome
      · exact absurd (hlocal.symm.trans hremote) (by decide)
  · have hquiet := quiet_adjustPending connection PendingConnection.destroy
      { state with pendings := state.pendings.set connection PendingConnection.received }
    have hnext : state.next offerer (.handshakeRequest connection connection) =
        some (adjustPending connection PendingConnection.destroy { state with
          pendings := state.pendings.set connection PendingConnection.received }) := by
      rw [ConnectionManager.next, ConnectionManager.handshakeRequest, if_neg hguard]
      simp only [hnot, hrefused, Bool.false_eq_true, if_false]
    refine ⟨_, hnext, (hinvariant.handshakeRequest hnext).1, hopened.trans hquiet.elsewhere,
      fun hentry ↦ hother connection (.inr hentry) rfl, fun htakes ↦ ?_, fun _ _ ↦ rfl⟩
    rcases htakes with hnone | hremote
    · exact absurd hnone hsome
    · exact absurd (hlocal.symm.trans hremote) (by decide)

/-- Assumes: the invariant, and the endpoint's pending connection with its handshaker. The response
connects the endpoint. -/
theorem Invariant.takes_response (offerer : Offerer) {pending : PendingConnection}
    (hinvariant : Invariant state) (hcurrent : state.pendingConnection = some connection)
    (hpending : state.pendings.get? connection = some pending)
    (hwiring : pending.wiring = .outgoing) (hhandshaking : pending.handshaking = true)
    (hunmanaged : state.managed.has connection = false) :
    ∃ after, state.next offerer (.handshakeCompleted connection connection) = some after ∧
      Invariant after ∧ Elsewhere connection state after ∧
      after.connecting ≠ some connection ∧ after.endpoint = some (.connected connection) := by
  obtain ⟨output, hendpoint⟩ := exists_connecting hcurrent
  obtain ⟨-, hconnected, -, -⟩ := hinvariant.complete_own hendpoint connection
  obtain ⟨helsewhere, hentry⟩ := hinvariant.elsewhere_complete hendpoint
  have hcompletable : pending.completable = true := by
    rw [PendingConnection.completable, hwiring, hhandshaking]
  have hnext : state.next offerer (.handshakeCompleted connection connection) =
      some ((state.onHandshakeCompleted connection connection).adjustPending connection
        PendingConnection.stopHandshaker) := by
    rw [ConnectionManager.next, ConnectionManager.handshakeCompleted]
    simp [hpending, hcompletable, hunmanaged, hwiring]
  have hquiet := quiet_adjustPending connection PendingConnection.stopHandshaker
    (state.onHandshakeCompleted connection connection)
  exact ⟨_, hnext, (hinvariant.handshakeCompleted hnext).invariant,
    helsewhere.trans hquiet.elsewhere, hentry, hconnected⟩

theorem elsewhere_close : Elsewhere connection state (state.close connection) := by
  cases hpending : state.pendings.get? connection with
  | none =>
    have hsame : state.close connection = state := by simp only [close, hpending]
    rw [hsame]
    exact (Quiet.refl connection state).elsewhere
  | some pending =>
    cases hstopped : pending.stopped with
    | true =>
      have hsame : state.close connection = state := by
        simp only [close, hpending, hstopped, if_true]
      rw [hsame]
      exact (Quiet.refl connection state).elsewhere
    | false =>
      cases hreplaced : pending.replacedAsDuplicate with
      | true =>
        have hclose : state.close connection =
            state.adjustPending connection fun current ↦ { current with stopped := true } := by
          simp only [close, hpending, hstopped, hreplaced, Bool.false_eq_true, if_true, if_false]
        rw [hclose]
        exact (quiet_adjustPending connection _ state).elsewhere
      | false =>
        obtain ⟨middle, hclose, hquiet, -⟩ := close_eq hpending hstopped hreplaced
        rw [hclose]
        generalize pending.disconnectedListeners = listeners
        refine hquiet.elsewhere.trans ?_
        clear hclose hquiet
        induction listeners generalizing middle with
        | zero => exact (Quiet.refl connection middle).elsewhere
        | succ listeners ih =>
          rw [Function.iterate_succ_apply]
          exact elsewhere_onDisconnected.trans (ih middle.onDisconnected)

/-- Assumes: the invariant, and a pending connection with its handshaker. When its socket is
disconnected, the connector lets it go, and the endpoint is gone if it was its own. -/
theorem Invariant.takes_closing (offerer : Offerer) {pending : PendingConnection}
    (hinvariant : Invariant state) (hpending : state.pendings.get? connection = some pending)
    (hwiring : pending.wiring = .outgoing) (hhandshaking : pending.handshaking = true) :
    ∃ after, state.next offerer (.socketDisconnected connection) = some after ∧
      Invariant after ∧ Elsewhere connection state after ∧
      after.connecting ≠ some connection ∧
      (state.pendingConnection = some connection → after.endpoint = none) ∧
      (state.pendingConnection ≠ some connection → after.endpoint = state.endpoint) := by
  obtain ⟨current, hcurrent⟩ := exists_close hpending
  have hreports := hinvariant.close_stopHandshaker hpending
  have hstop := quiet_adjustPending connection PendingConnection.stopHandshaker
    (state.close connection)
  have hfound := hstop.exists hcurrent
  have hlistener := quiet_delFuncListener connection current.stopHandshaker
    ((state.close connection).adjustPending connection PendingConnection.stopHandshaker)
  have hnext : state.next offerer (.socketDisconnected connection) =
      some (((state.close connection).adjustPending connection
        PendingConnection.stopHandshaker).delFuncListener connection current.stopHandshaker) := by
    rw [ConnectionManager.next, ConnectionManager.socketDisconnected]
    simp only [hpending, hwiring, hhandshaking, if_true, hfound]
    rfl
  refine ⟨_, hnext, (hinvariant.socketDisconnected hnext).invariant,
    (elsewhere_close.trans hstop.elsewhere).trans hlistener.1.elsewhere, ?_, ?_, ?_⟩
  · exact hreports.invariant.entry_ne hfound hlistener.1 hlistener.2
  · intro hown
    obtain ⟨output, hendpoint⟩ := exists_connecting hown
    exact hlistener.1.endpoint.trans (hinvariant.close_own hendpoint).2.1
  · exact fun hother ↦ ((hinvariant.socketDisconnected hnext).others hother).endpoint

end ConnectionManager

end PomboStorageNode.Dht
