import PomboStorageNode.Dht.ConnectionBooks

/-!
# What a pending connection reports

The invariant of a node's connections to a remote node. The pending connection of the endpoint has a
running timer, is not replaced, and reports to the connection manager through one listener of each
kind; no other one that is not replaced still reports (`Fits`). So closing or completing the
endpoint's pending connection settles its buffer, and no event of another one reaches the endpoint
(`Reports`).
-/

set_option autoImplicit false

namespace PomboStorageNode.Dht

open Library

namespace ConnectionManager

variable {state middle after : ConnectionManager} {connection other : ℕ}

/-! ### The invariant -/

/-- What a pending connection is like. That of the endpoint has a timer that runs and reports to the
manager; another one that is not replaced does not report to it; and what the connector hands out
again is not closed unless it is replaced. -/
structure Fits (state : ConnectionManager) (connection : ℕ) (pending : PendingConnection) :
    Prop where
  current : state.pendingConnection = some connection →
    pending.stopped = false ∧ pending.replacedAsDuplicate = false ∧
      pending.connectedListeners = 1 ∧ pending.disconnectedListeners = 1
  silent : state.pendingConnection ≠ some connection → pending.replacedAsDuplicate = false →
    pending.disconnectedListeners = 0 ∧
      (pending.connectedListeners = 0 ∨ pending.handshaking = false ∧ pending.attached = false)
  entry : state.connecting = some connection →
    pending.attached = true ∧ (pending.replacedAsDuplicate = false → pending.stopped = false)

/-- The invariant of the connections to a remote node. -/
structure Invariant (state : ConnectionManager) : Prop where
  books : Books state
  fits : ∀ connection pending, state.pendings.get? connection = some pending →
    Fits state connection pending
  present : ∀ connection, state.pendingConnection = some connection ∨
    state.connecting = some connection → state.pendings.has connection = true
  reporting : ∀ connection managed, state.managed.get? connection = some managed →
    managed.listening = true → managed.replacedAsDuplicate = false →
      state.endpoint = some (.connected connection)
  unfailed : state.failed = false

theorem invariant_start : Invariant start where
  books := ⟨fun _ _ himpossible ↦ (nomatch himpossible), List.Perm.nil, rfl, List.Pairwise.nil⟩
  fits := fun _ _ hpending ↦ nomatch hpending
  present := fun _ hpresent ↦ hpresent.elim (fun h ↦ nomatch h) fun h ↦ nomatch h
  reporting := fun _ _ hmanaged ↦ nomatch hmanaged
  unfailed := rfl

/-- Assumes: the invariant. Another pending connection fits as before, if the endpoint and the
connector's entry do not become it. -/
theorem Invariant.fits_others {pending : PendingConnection} (hinvariant : Invariant state)
    (hothers : after.pendings.get? other = state.pendings.get? other)
    (hcurrent : after.pendingConnection = some other ↔ state.pendingConnection = some other)
    (hentry : after.connecting = some other → state.connecting = some other)
    (hpending : after.pendings.get? other = some pending) : Fits after other pending := by
  rw [hothers] at hpending
  have hfits := hinvariant.fits other pending hpending
  constructor
  · exact fun hafter ↦ hfits.current (hcurrent.mp hafter)
  · exact fun hafter ↦ hfits.silent fun hbefore ↦ hafter (hcurrent.mpr hbefore)
  · exact fun hafter ↦ hfits.entry (hentry hafter)

/-- Assumes: the invariant. A quiet step keeps it if the changed record fits. -/
theorem Invariant.quiet {change : PendingConnection → PendingConnection}
    {pending : PendingConnection} (hinvariant : Invariant state)
    (hquiet : Quiet connection change state after)
    (hpending : state.pendings.get? connection = some pending)
    (hfits : Fits after connection (change pending)) : Invariant after where
  books := hinvariant.books.quiet hquiet
  fits := by
    intro other record hrecord
    by_cases hother : other = connection
    · rw [hother, hquiet.own, hpending] at hrecord
      cases hrecord
      exact hother ▸ hfits
    · exact hinvariant.fits_others (hquiet.others other hother) (by rw [hquiet.pendingConnection])
        (hquiet.entry other) hrecord
  present := by
    intro other hpresent
    rw [hquiet.has]
    rw [hquiet.pendingConnection] at hpresent
    exact hinvariant.present other (hpresent.imp_right (hquiet.entry other))
  reporting := by
    rw [hquiet.managed, hquiet.endpoint]
    exact hinvariant.reporting
  unfailed := hquiet.failed.trans hinvariant.unfailed

/-- Assumes: the invariant, and an endpoint with a pending connection. Nothing else reports. -/
theorem Invariant.not_reporting {output : OutputBuffer} (hinvariant : Invariant state)
    (hendpoint : state.endpoint = some (.connecting connection output)) {managed : ℕ}
    {record : ManagedConnection} (hrecord : state.managed.get? managed = some record)
    (hlistening : record.listening = true) (hnew : record.replacedAsDuplicate = false) : False := by
  have hconnected := hinvariant.reporting managed record hrecord hlistening hnew
  rw [hendpoint] at hconnected
  cases hconnected

theorem pendingConnection_of_connecting {output : OutputBuffer}
    (hendpoint : state.endpoint = some (.connecting connection output)) :
    state.pendingConnection = some connection := by
  simp only [pendingConnection, hendpoint]

theorem exists_connecting (hcurrent : state.pendingConnection = some connection) :
    ∃ output, state.endpoint = some (.connecting connection output) := by
  unfold pendingConnection at hcurrent
  split at hcurrent
  · cases hcurrent
    exact ⟨_, by assumption⟩
  · cases hcurrent
  · cases hcurrent

/-- Assumes: the invariant, and a quiet step on the pending connection of the endpoint that leaves
the connector without it. When the manager hears that it is disconnected, the invariant is kept. -/
theorem Invariant.onDisconnected {change : PendingConnection → PendingConnection}
    {pending : PendingConnection} {output : OutputBuffer} (hinvariant : Invariant state)
    (hquiet : Quiet connection change state middle)
    (hendpoint : state.endpoint = some (.connecting connection output))
    (hpending : state.pendings.get? connection = some pending)
    (hentry : middle.connecting ≠ some connection)
    (hsilent : (change pending).disconnectedListeners = 0 ∧
      (change pending).handshaking = false ∧ (change pending).attached = false) :
    Invariant middle.onDisconnected := by
  have hmiddle : middle.endpoint = some (.connecting connection output) :=
    hquiet.endpoint.trans hendpoint
  have hcurrent := pendingConnection_of_connecting hendpoint
  have hbooks := (hinvariant.books.quiet hquiet).onDisconnected
  rw [onDisconnected_of_connecting hmiddle] at hbooks ⊢
  refine ⟨hbooks, ?_, ?_, ?_, hquiet.failed.trans hinvariant.unfailed⟩
  · intro other record hrecord
    by_cases hother : other = connection
    · subst hother
      have hown : middle.pendings.get? other = some record := hrecord
      rw [hquiet.own, hpending] at hown
      cases hown
      exact ⟨fun himpossible ↦ (nomatch himpossible), fun _ _ ↦ ⟨hsilent.1, .inr hsilent.2⟩,
        fun hafter ↦ absurd hafter hentry⟩
    · refine hinvariant.fits_others (hquiet.others other hother) ?_ (hquiet.entry other) hrecord
      rw [hcurrent]
      exact ⟨fun himpossible ↦ (nomatch himpossible), fun hsame ↦
        absurd (Option.some.inj hsame).symm hother⟩
  · rintro other (himpossible | hconnecting)
    · exact nomatch himpossible
    · exact (hquiet.has other).trans (hinvariant.present other (.inr (hquiet.entry other hconnecting)))
  · intro managed record hrecord hlistening hnew
    have hbefore : state.managed.get? managed = some record := hquiet.managed ▸ hrecord
    exact (hinvariant.not_reporting hendpoint hbefore hlistening hnew).elim

/-- Assumes: the invariant, and a quiet step on the pending connection of the endpoint that leaves
the connector without it. When the manager hears that it is connected, the invariant is kept. -/
theorem Invariant.onConnected {change : PendingConnection → PendingConnection}
    {pending : PendingConnection} {output : OutputBuffer} (hinvariant : Invariant state)
    (hquiet : Quiet connection change state middle)
    (hendpoint : state.endpoint = some (.connecting connection output))
    (hpending : state.pendings.get? connection = some pending)
    (hentry : middle.connecting ≠ some connection)
    (hrunning : (change pending).stopped = false) (managed : ℕ) :
    Invariant (middle.onConnected managed) := by
  have hmiddle : middle.endpoint = some (.connecting connection output) :=
    hquiet.endpoint.trans hendpoint
  have hcurrent := pendingConnection_of_connecting hendpoint
  have hbooks := (hinvariant.books.quiet hquiet).onConnected hmiddle managed
  rw [onConnected_of_connecting hmiddle] at hbooks ⊢
  refine ⟨hbooks, ?_, ?_, ?_, hquiet.failed.trans hinvariant.unfailed⟩
  · intro other record hrecord
    by_cases hother : other = connection
    · subst hother
      have hown : (middle.pendings.adjust other PendingConnection.destroy).get? other =
          some record := hrecord
      rw [OrderedMap.get?_adjust_self, hquiet.own, hpending] at hown
      cases hown
      refine ⟨fun himpossible ↦ (nomatch himpossible), fun _ _ ↦ ?_,
        fun hafter ↦ absurd hafter hentry⟩
      simp [PendingConnection.destroy, hrunning]
    · refine hinvariant.fits_others ?_ ?_ (hquiet.entry other) hrecord
      · exact (OrderedMap.get?_adjust_of_ne _ _ hother).trans (hquiet.others other hother)
      · rw [hcurrent]
        exact ⟨fun himpossible ↦ (nomatch himpossible), fun hsame ↦
          absurd (Option.some.inj hsame).symm hother⟩
  · rintro other (himpossible | hconnecting)
    · exact nomatch himpossible
    · have hpresent := hinvariant.present other (.inr (hquiet.entry other hconnecting))
      rw [OrderedMap.has_adjust, hquiet.has]
      exact hpresent
  · intro next record hrecord hlistening hnew
    by_cases hnext : next = managed
    · rw [hnext]
    · have hbefore : state.managed.get? next = some record := by
        rw [← hquiet.managed, ← OrderedMap.get?_set_of_ne middle.managed ⟨false, true⟩ hnext]
        exact hrecord
      exact (hinvariant.not_reporting hendpoint hbefore hlistening hnew).elim

/-! ### What an event reports -/

/-- What `emit('disconnected')` leaves of a pending connection that was closed. -/
def afterClose (pending : PendingConnection) : PendingConnection :=
  { pending with
    stopped := true, handshaking := false, attached := false, disconnectedListeners := 0 }

/-- What `emit('connected')` leaves of a pending connection. -/
def afterConnected (pending : PendingConnection) : PendingConnection :=
  { pending with attached := false, connectedListeners := 0 }

/-- Closing a pending connection that is neither closed nor replaced: its handshaker and the
connector let it go, and the manager hears of it through its listeners. -/
theorem close_eq {pending : PendingConnection}
    (hpending : state.pendings.get? connection = some pending)
    (hrunning : pending.stopped = false) (hnew : pending.replacedAsDuplicate = false) :
    ∃ middle, state.close connection =
        ConnectionManager.onDisconnected^[pending.disconnectedListeners] middle ∧
      Quiet connection afterClose state middle ∧
      middle.connecting = if pending.attached then none else state.connecting := by
  have hstop := quiet_adjustPending connection (fun current ↦ { current with stopped := true }) state
  have hhandshaker := quiet_adjustPending connection PendingConnection.stopHandshaker
    (state.adjustPending connection fun current ↦ { current with stopped := true })
  have hlistener := quiet_delFuncListener connection pending
    ((state.adjustPending connection fun current ↦ { current with stopped := true }).adjustPending
      connection PendingConnection.stopHandshaker)
  refine ⟨_, ?_, (((hstop.trans hhandshaker).trans hlistener.1).trans
    (quiet_adjustPending connection (fun current ↦ { current with disconnectedListeners := 0 })
      _)).congr hpending ?_, ?_⟩
  · simp only [close, hpending, hrunning, hnew, Bool.false_eq_true, if_false, emitDisconnected]
  · simp [afterClose, PendingConnection.stopHandshaker]
  · exact hlistener.2

/-- A handshake that is completed on a pending connection that is not replaced: the connector lets
it go, and the manager hears of it through its listeners. -/
theorem onHandshakeCompleted_eq {pending : PendingConnection} (managed : ℕ)
    (hpending : state.pendings.get? connection = some pending)
    (hnew : pending.replacedAsDuplicate = false) :
    ∃ middle, state.onHandshakeCompleted connection managed =
        (onConnected managed)^[pending.connectedListeners] middle ∧
      Quiet connection afterConnected state middle ∧
      middle.connecting = if pending.attached then none else state.connecting := by
  have hlistener := quiet_delFuncListener connection pending state
  refine ⟨_, ?_, (hlistener.1.trans (quiet_adjustPending connection
    (fun current ↦ { current with connectedListeners := 0 }) _)).congr hpending ?_, ?_⟩
  · simp only [onHandshakeCompleted, hpending, hnew, Bool.false_eq_true, if_false, emitConnected]
  · simp [afterConnected]
  · exact hlistener.2

/-- Assumes: the invariant. A pending connection that the connector does not let go is not its
entry. -/
theorem Invariant.entry_ne {pending : PendingConnection} {change : PendingConnection → PendingConnection}
    (hinvariant : Invariant state) (hpending : state.pendings.get? connection = some pending)
    (hquiet : Quiet connection change state after)
    (hentry : after.connecting = if pending.attached then none else state.connecting) :
    after.connecting ≠ some connection := by
  intro hafter
  have hattached := ((hinvariant.fits connection pending hpending).entry
    (hquiet.entry connection hafter)).1
  rw [hentry, if_pos hattached] at hafter
  cases hafter

/-! ### Closing and completing -/

/-- Assumes: the invariant. Closing a pending connection that is not the endpoint's changes nothing
but the connection. -/
theorem Invariant.close_other {pending : PendingConnection} (hinvariant : Invariant state)
    (hpending : state.pendings.get? connection = some pending)
    (hother : state.pendingConnection ≠ some connection) :
    Invariant (state.close connection) ∧ Unchanged state (state.close connection) := by
  have hfits := hinvariant.fits connection pending hpending
  cases hstopped : pending.stopped with
  | true =>
    have hsame : state.close connection = state := by
      simp only [close, hpending, hstopped, if_true]
    rw [hsame]
    exact ⟨hinvariant, .refl state⟩
  | false =>
    cases hreplaced : pending.replacedAsDuplicate with
    | true =>
      have hclose : state.close connection =
          state.adjustPending connection fun current ↦ { current with stopped := true } := by
        simp only [close, hpending, hstopped, hreplaced, Bool.false_eq_true, if_true, if_false]
      have hquiet := quiet_adjustPending connection
        (fun current ↦ { current with stopped := true }) state
      rw [hclose]
      refine ⟨hinvariant.quiet hquiet hpending ⟨?_, ?_, ?_⟩, hquiet.unchanged⟩
      · exact fun hcurrent ↦ absurd (hquiet.pendingConnection ▸ hcurrent) hother
      · exact fun _ hnew ↦ absurd (hreplaced.symm.trans hnew) (by decide)
      · exact fun hentry ↦ ⟨(hfits.entry hentry).1, fun hnew ↦
          absurd (hreplaced.symm.trans hnew) (by decide)⟩
    | false =>
      obtain ⟨middle, hclose, hquiet, hentry⟩ := close_eq hpending hstopped hreplaced
      rw [hclose, (hfits.silent hother hreplaced).1, Function.iterate_zero, id]
      refine ⟨hinvariant.quiet hquiet hpending ⟨?_, ?_, ?_⟩, hquiet.unchanged⟩
      · exact fun hcurrent ↦ absurd (hquiet.pendingConnection ▸ hcurrent) hother
      · exact fun _ _ ↦ ⟨rfl, .inr ⟨rfl, rfl⟩⟩
      · exact fun hafter ↦ absurd hafter (hinvariant.entry_ne hpending hquiet hentry)

/-- Assumes: the invariant. Closing the pending connection of the endpoint rejects the promise of
its buffer. -/
theorem Invariant.close_own {output : OutputBuffer} (hinvariant : Invariant state)
    (hendpoint : state.endpoint = some (.connecting connection output)) :
    Invariant (state.close connection) ∧ (state.close connection).endpoint = none ∧
      (state.close connection).rejected = state.rejected ++ output.buffer ∧
      (state.close connection).flushed = state.flushed ∧
      (state.close connection).resolved = state.resolved := by
  have hcurrent := pendingConnection_of_connecting hendpoint
  obtain ⟨pending, hpending⟩ := Option.isSome_iff_exists.mp
    (hinvariant.present connection (.inl hcurrent))
  obtain ⟨hrunning, hnew, -, hlisteners⟩ :=
    (hinvariant.fits connection pending hpending).current hcurrent
  obtain ⟨middle, hclose, hquiet, hentry⟩ := close_eq hpending hrunning hnew
  have hmiddle : middle.endpoint = some (.connecting connection output) :=
    hquiet.endpoint.trans hendpoint
  rw [hclose, hlisteners, Function.iterate_one]
  refine ⟨hinvariant.onDisconnected hquiet hendpoint hpending
    (hinvariant.entry_ne hpending hquiet hentry) ⟨rfl, rfl, rfl⟩, ?_⟩
  rw [onDisconnected_of_connecting hmiddle, hinvariant.books.promised connection output hendpoint]
  exact ⟨rfl, congrArg (· ++ output.buffer) hquiet.rejected, hquiet.flushed, hquiet.resolved⟩

/-- What an event of a pending connection does: the invariant is kept, what becomes connected gets
the buffer, and only an event of the endpoint's pending connection changes the endpoint. -/
structure Reports (connection : ℕ) (before after : ConnectionManager) : Prop where
  invariant : Invariant after
  handsOver : HandsOver before after
  others : before.pendingConnection ≠ some connection → Unchanged before after

theorem Reports.quiet {change : PendingConnection → PendingConnection}
    (hreports : Reports connection state middle) (hquiet : Quiet connection change middle after)
    (hinvariant : Invariant after) : Reports connection state after where
  invariant := hinvariant
  handsOver := hreports.handsOver.unchanged hquiet.unchanged
  others := fun hother ↦ (hreports.others hother).trans hquiet.unchanged

/-- Assumes: the invariant. Closing a pending connection hands nothing over. -/
theorem Invariant.close {pending : PendingConnection} (hinvariant : Invariant state)
    (hpending : state.pendings.get? connection = some pending) :
    Reports connection state (state.close connection) := by
  by_cases hcurrent : state.pendingConnection = some connection
  · obtain ⟨output, hendpoint⟩ := exists_connecting hcurrent
    obtain ⟨hafter, hnone, -, hflushed, hresolved⟩ := hinvariant.close_own hendpoint
    refine ⟨hafter, .inl ⟨hflushed, hresolved, fun managed hmanaged ↦ ?_⟩, absurd hcurrent⟩
    rw [hnone] at hmanaged
    cases hmanaged
  · obtain ⟨hafter, hunchanged⟩ := hinvariant.close_other hpending hcurrent
    exact ⟨hafter, hunchanged.handsOver, fun _ ↦ hunchanged⟩

/-- Assumes: a pending connection that can still complete a handshake, and is neither the endpoint's
nor replaced. The manager does not listen to it. -/
theorem Fits.no_listener {pending : PendingConnection} (hfits : Fits state connection pending)
    (hcompletable : pending.completable = true)
    (hother : state.pendingConnection ≠ some connection)
    (hnew : pending.replacedAsDuplicate = false) : pending.connectedListeners = 0 := by
  rcases (hfits.silent hother hnew).2 with hnone | ⟨hhandshaking, hattached⟩
  · exact hnone
  · cases hwiring : pending.wiring <;>
      simp [PendingConnection.completable, hwiring, hhandshaking, hattached] at hcompletable

/-- Assumes: the invariant, and a pending connection that is not the endpoint's, with no listener of
the manager unless it is replaced. When its handshake is completed, nothing but the connection
changes. -/
theorem Invariant.complete_other {pending : PendingConnection} (hinvariant : Invariant state)
    (managed : ℕ) (hpending : state.pendings.get? connection = some pending)
    (hlisteners : pending.replacedAsDuplicate = false → pending.connectedListeners = 0)
    (hother : state.pendingConnection ≠ some connection) :
    Invariant (state.onHandshakeCompleted connection managed) ∧
      Unchanged state (state.onHandshakeCompleted connection managed) := by
  have hfits := hinvariant.fits connection pending hpending
  cases hreplaced : pending.replacedAsDuplicate with
  | true =>
    have hsame : state.onHandshakeCompleted connection managed = state := by
      simp only [onHandshakeCompleted, hpending, hreplaced, if_true]
    rw [hsame]
    exact ⟨hinvariant, .refl state⟩
  | false =>
    obtain ⟨middle, hcomplete, hquiet, hentry⟩ := onHandshakeCompleted_eq managed hpending hreplaced
    rw [hcomplete, hlisteners hreplaced, Function.iterate_zero, id]
    refine ⟨hinvariant.quiet hquiet hpending ⟨?_, ?_, ?_⟩, hquiet.unchanged⟩
    · exact fun hcurrent ↦ absurd (hquiet.pendingConnection ▸ hcurrent) hother
    · exact fun _ _ ↦ ⟨(hfits.silent hother hreplaced).1, .inl rfl⟩
    · exact fun hafter ↦ absurd hafter (hinvariant.entry_ne hpending hquiet hentry)

/-- Assumes: the invariant. When the handshake of the endpoint's pending connection is completed,
the endpoint is connected and its buffer handed over. -/
theorem Invariant.complete_own {output : OutputBuffer} (hinvariant : Invariant state)
    (hendpoint : state.endpoint = some (.connecting connection output)) (managed : ℕ) :
    Invariant (state.onHandshakeCompleted connection managed) ∧
      (state.onHandshakeCompleted connection managed).endpoint = some (.connected managed) ∧
      (state.onHandshakeCompleted connection managed).flushed =
        state.flushed ++ output.buffer.map (fun message ↦ (managed, message)) ∧
      (state.onHandshakeCompleted connection managed).resolved =
        state.resolved ++ output.buffer := by
  have hcurrent := pendingConnection_of_connecting hendpoint
  obtain ⟨pending, hpending⟩ := Option.isSome_iff_exists.mp
    (hinvariant.present connection (.inl hcurrent))
  obtain ⟨hrunning, hnew, hlisteners, -⟩ :=
    (hinvariant.fits connection pending hpending).current hcurrent
  obtain ⟨middle, hcomplete, hquiet, hentry⟩ := onHandshakeCompleted_eq managed hpending hnew
  have hmiddle : middle.endpoint = some (.connecting connection output) :=
    hquiet.endpoint.trans hendpoint
  rw [hcomplete, hlisteners, Function.iterate_one]
  refine ⟨hinvariant.onConnected hquiet hendpoint hpending
    (hinvariant.entry_ne hpending hquiet hentry) hrunning managed, ?_⟩
  rw [onConnected_of_connecting hmiddle, hinvariant.books.promised connection output hendpoint,
    hquiet.flushed, hquiet.resolved]
  exact ⟨rfl, rfl, rfl⟩

/-- Assumes: the invariant, and a pending connection to which the manager does not listen if it is
neither the endpoint's nor replaced. -/
theorem Invariant.complete {pending : PendingConnection} (hinvariant : Invariant state)
    (managed : ℕ) (hpending : state.pendings.get? connection = some pending)
    (hlisteners : state.pendingConnection ≠ some connection →
      pending.replacedAsDuplicate = false → pending.connectedListeners = 0) :
    Reports connection state (state.onHandshakeCompleted connection managed) := by
  by_cases hcurrent : state.pendingConnection = some connection
  · obtain ⟨output, hendpoint⟩ := exists_connecting hcurrent
    obtain ⟨hafter, hconnected, hflushed, hresolved⟩ := hinvariant.complete_own hendpoint managed
    have hwaiting : state.waiting = output.buffer := by simp only [waiting, hendpoint]
    refine ⟨hafter, .inr ⟨managed, hconnected, ?_, ?_⟩, absurd hcurrent⟩
    · rw [hwaiting, hflushed]
    · rw [hwaiting, hresolved]
  · obtain ⟨hafter, hunchanged⟩ :=
      hinvariant.complete_other managed hpending (hlisteners hcurrent) hcurrent
    exact ⟨hafter, hunchanged.handsOver, fun _ ↦ hunchanged⟩

/-- Assumes: the invariant. A handshaker may be stopped. -/
theorem Invariant.stopHandshaker {pending : PendingConnection} (hinvariant : Invariant state)
    (hpending : state.pendings.get? connection = some pending) :
    Invariant (state.adjustPending connection PendingConnection.stopHandshaker) := by
  have hfits := hinvariant.fits connection pending hpending
  refine hinvariant.quiet (quiet_adjustPending connection _ state) hpending
    ⟨hfits.current, fun hother hnew ↦ ?_, hfits.entry⟩
  obtain ⟨hdisconnected, hconnected⟩ := hfits.silent hother hnew
  exact ⟨hdisconnected, hconnected.imp_right fun h ↦ ⟨rfl, h.2⟩⟩

/-- Assumes: the invariant. The connector may let a pending connection go. -/
theorem Invariant.delFunc {pending : PendingConnection} (hinvariant : Invariant state)
    (hpending : state.pendings.get? connection = some pending) :
    Invariant (state.delFunc connection) := by
  have hfits := hinvariant.fits connection pending hpending
  refine hinvariant.quiet (quiet_delFunc connection state) hpending
    ⟨hfits.current, fun hother hnew ↦ ?_, fun himpossible ↦ nomatch himpossible⟩
  obtain ⟨hdisconnected, hconnected⟩ := hfits.silent hother hnew
  exact ⟨hdisconnected, hconnected.imp_right fun h ↦ ⟨h.1, rfl⟩⟩

theorem Quiet.exists {change : PendingConnection → PendingConnection} {pending : PendingConnection}
    (hquiet : Quiet connection change state after)
    (hpending : state.pendings.get? connection = some pending) :
    after.pendings.get? connection = some (change pending) := by
  rw [hquiet.own, hpending, Option.map_some]

@[simp] theorem has_onConnected (managed other : ℕ) (state : ConnectionManager) :
    (state.onConnected managed).pendings.has other = state.pendings.has other := by
  rcases hendpoint : state.endpoint with _ | ⟨connection, output⟩ | current
  · simp only [ConnectionManager.onConnected, hendpoint]
  · rw [onConnected_of_connecting hendpoint, OrderedMap.has_adjust]
  · simp only [ConnectionManager.onConnected, hendpoint]

@[simp] theorem has_onDisconnected (other : ℕ) (state : ConnectionManager) :
    state.onDisconnected.pendings.has other = state.pendings.has other := by
  rcases hendpoint : state.endpoint with _ | ⟨connection, output⟩ | current
  · rw [onDisconnected_of_none hendpoint]
  · rw [onDisconnected_of_connecting hendpoint]
  · rw [onDisconnected_of_connected hendpoint]

theorem has_iterate {step : ConnectionManager → ConnectionManager}
    (hstep : ∀ state, (step state).pendings.has other = state.pendings.has other) (count : ℕ)
    (state : ConnectionManager) :
    (step^[count] state).pendings.has other = state.pendings.has other := by
  induction count generalizing state with
  | zero => rfl
  | succ count ih => rw [Function.iterate_succ_apply, ih, hstep]

/-- No event of a pending connection makes a record of it disappear. -/
theorem exists_close {pending : PendingConnection}
    (hpending : state.pendings.get? connection = some pending) :
    ∃ current, (state.close connection).pendings.get? connection = some current := by
  have hhas : state.pendings.has connection = true := by
    rw [OrderedMap.has, hpending, Option.isSome_some]
  refine Option.isSome_iff_exists.mp ?_
  cases hstopped : pending.stopped with
  | true =>
    simp only [ConnectionManager.close, hpending, hstopped, if_true, Option.isSome_some]
  | false =>
    cases hreplaced : pending.replacedAsDuplicate with
    | true =>
      simp only [ConnectionManager.close, hpending, hstopped, hreplaced, Bool.false_eq_true,
        if_true, if_false]
      rw [(quiet_adjustPending connection _ state).own, Option.isSome_map, hpending,
        Option.isSome_some]
    | false =>
      obtain ⟨middle, hclose, hquiet, -⟩ := close_eq hpending hstopped hreplaced
      rw [hclose]
      exact ((has_iterate (has_onDisconnected connection) _ middle).trans
        (hquiet.has connection)).trans hhas

theorem exists_onHandshakeCompleted {pending : PendingConnection} (managed : ℕ)
    (hpending : state.pendings.get? connection = some pending) :
    ∃ current, (state.onHandshakeCompleted connection managed).pendings.get? connection =
      some current := by
  have hhas : state.pendings.has connection = true := by
    rw [OrderedMap.has, hpending, Option.isSome_some]
  refine Option.isSome_iff_exists.mp ?_
  cases hreplaced : pending.replacedAsDuplicate with
  | true => simp only [onHandshakeCompleted, hpending, hreplaced, if_true, Option.isSome_some]
  | false =>
    obtain ⟨middle, hcomplete, hquiet, -⟩ := onHandshakeCompleted_eq managed hpending hreplaced
    rw [hcomplete]
    exact ((has_iterate (has_onConnected managed connection) _ middle).trans
      (hquiet.has connection)).trans hhas

/-! ### The events of a pending connection -/

/-- Assumes: the invariant. -/
theorem Invariant.close_stopHandshaker {pending : PendingConnection} (hinvariant : Invariant state)
    (hpending : state.pendings.get? connection = some pending) :
    Reports connection state
      ((state.close connection).adjustPending connection PendingConnection.stopHandshaker) := by
  have hreports := hinvariant.close hpending
  obtain ⟨current, hcurrent⟩ := exists_close hpending
  exact hreports.quiet (quiet_adjustPending connection _ _)
    (hreports.invariant.stopHandshaker hcurrent)

/-- Assumes: the invariant. -/
theorem Invariant.handshakeFailed (hinvariant : Invariant state)
    (hnext : state.handshakeFailed connection = some after) : Reports connection state after := by
  unfold ConnectionManager.handshakeFailed at hnext
  split at hnext
  · split_ifs at hnext
    cases hnext
    exact hinvariant.close_stopHandshaker (by assumption)
  · cases hnext

/-- Assumes: the invariant. -/
theorem Invariant.delFuncListener {current pending : PendingConnection}
    (hreports : Reports connection state middle)
    (hpending : middle.pendings.get? connection = some pending) :
    Reports connection state (middle.delFuncListener connection current) := by
  unfold ConnectionManager.delFuncListener
  split_ifs
  · exact hreports.quiet (quiet_delFunc connection middle) (hreports.invariant.delFunc hpending)
  · exact hreports

/-- Assumes: the invariant. -/
theorem Invariant.socketDisconnected (hinvariant : Invariant state)
    (hnext : state.socketDisconnected connection = some after) :
    Reports connection state after := by
  unfold ConnectionManager.socketDisconnected at hnext
  split at hnext
  · rename_i pending hpending
    split_ifs at hnext
    · cases hnext
      have hreports := hinvariant.close_stopHandshaker hpending
      split
      · exact Invariant.delFuncListener hreports (by assumption)
      · exact hreports
    · cases hnext
      have hreports : Reports connection state state :=
        ⟨hinvariant, (Unchanged.refl state).handsOver, fun _ ↦ .refl state⟩
      rw [hpending]
      exact Invariant.delFuncListener hreports hpending
  · cases hnext

/-- Assumes: the invariant. -/
theorem Invariant.handshakeCompleted {managed : ℕ} (hinvariant : Invariant state)
    (hnext : state.handshakeCompleted connection managed = some after) :
    Reports connection state after := by
  unfold ConnectionManager.handshakeCompleted at hnext
  split at hnext
  · rename_i pending hpending
    split_ifs at hnext with himpossible
    have hcompletable : pending.completable = true := by
      simpa using (not_or.mp himpossible).1
    have hlisteners := (hinvariant.fits connection pending hpending).no_listener hcompletable
    split at hnext
    · cases hnext
      have hreports := hinvariant.complete managed hpending hlisteners
      obtain ⟨current, hcurrent⟩ := exists_onHandshakeCompleted managed hpending
      exact hreports.quiet (quiet_adjustPending connection _ _)
        (hreports.invariant.stopHandshaker hcurrent)
    · cases hnext
      have hquiet := quiet_adjustPending connection PendingConnection.stopHandshaker state
      have hstopped := hquiet.exists hpending
      have hreports := (hinvariant.stopHandshaker hpending).complete managed hstopped hlisteners
      obtain ⟨current, hcurrent⟩ := exists_onHandshakeCompleted managed hstopped
      refine Reports.quiet ⟨hreports.invariant, hquiet.unchanged.handsOver_trans hreports.handsOver,
        fun hother ↦ hquiet.unchanged.trans (hreports.others hother)⟩ (quiet_delFunc connection _)
        (hreports.invariant.delFunc hcurrent)
    · cases hnext
      exact hinvariant.complete _ hpending hlisteners
  · cases hnext

/-- A rejected handshake destroys the pending connection and nothing else. -/
theorem quiet_rejectHandshake (hnext : state.rejectHandshake connection = some after) :
    Quiet connection
        ((fun pending ↦ { pending with attached := false }) ∘
          fun pending ↦ pending.stopHandshaker.destroy) state after ∧
      after.connecting = none ∧
      ∃ pending, state.pendings.get? connection = some pending := by
  unfold ConnectionManager.rejectHandshake at hnext
  split at hnext
  · rename_i pending hpending
    split_ifs at hnext
    cases hnext
    exact ⟨(quiet_adjustPending connection
      (fun current ↦ current.stopHandshaker.destroy) state).trans (quiet_delFunc connection _), rfl,
      pending, hpending⟩
  · cases hnext

/-- Assumes: the invariant, and a pending connection that is not the endpoint's. Its handshake may be
rejected. -/
theorem Invariant.rejectHandshake (hinvariant : Invariant state)
    (hother : state.pendingConnection ≠ some connection)
    (hnext : state.rejectHandshake connection = some after) : Invariant after := by
  obtain ⟨hquiet, hentry, pending, hpending⟩ := quiet_rejectHandshake hnext
  refine hinvariant.quiet hquiet hpending ⟨?_, fun _ hnew ↦ ?_, ?_⟩
  · exact fun hcurrent ↦ absurd (hquiet.pendingConnection ▸ hcurrent) hother
  · have hfits := hinvariant.fits connection pending hpending
    cases hstopped : pending.stopped with
    | false => simp [PendingConnection.stopHandshaker, PendingConnection.destroy, hstopped]
    | true =>
      have hkept : pending.stopHandshaker.destroy = pending.stopHandshaker := by
        simp [PendingConnection.stopHandshaker, PendingConnection.destroy, hstopped]
      simp only [Function.comp_apply, hkept] at hnew ⊢
      exact ⟨(hfits.silent hother hnew).1,
        (hfits.silent hother hnew).2.imp_right fun _ ↦ ⟨rfl, trivial⟩⟩
  · intro hafter
    rw [hentry] at hafter
    cases hafter

end ConnectionManager

end PomboStorageNode.Dht
