import PomboStorageNode.Dht.ConnectionReports

/-!
# Every buffered message is settled once

A message that `send` buffers for a connecting endpoint is to be handed to the connection that next
becomes connected, with all others of the buffer and in their order, or its promise is rejected. The
books say that nothing is lost, handed twice or out of order (`Books`). That the promise is settled
at all needs that the pending connection of the endpoint still reports to the connection manager:
its timer runs, it is not replaced, and the manager listens to it (`Fits`).

The code keeps this in every step but two (`keepsBuffer`). The connector hands out a pending
connection that was replaced as a duplicate, when the connection that replaced it has gone before
it. And a handshake that is rejected on the pending connection of the endpoint destroys it without
a word to the connection manager, while the outgoing handshaker closes it on the same errors. In
both cases the endpoint keeps a pending connection from which no event comes.
-/

set_option autoImplicit false

namespace PomboStorageNode.Dht

open Library Library.Transition

namespace ConnectionManager

variable {state middle after : ConnectionManager} {connection other : ℕ}

/-! ### New connections -/

/-- The listeners and flags of a pending connection that may become the endpoint's. -/
structure Fresh (pending : PendingConnection) : Prop where
  running : pending.stopped = false
  new : pending.replacedAsDuplicate = false
  connected : pending.connectedListeners = 0
  disconnected : pending.disconnectedListeners = 0

/-- A new pending connection becomes the endpoint's, with the buffer of the endpoint, and what the
endpoint had is replaced. -/
structure Accepts (connection : ℕ) (before after : ConnectionManager) : Prop where
  endpoint : ∃ output, after.endpoint = some (.connecting connection output) ∧
    output.buffer = before.waiting ∧ output.promised = output.buffer
  pushes : after.pushes = before.pushes
  flushed : after.flushed = before.flushed
  resolved : after.resolved = before.resolved
  rejected : after.rejected = before.rejected
  failed : after.failed = before.failed
  connecting : after.connecting = before.connecting
  own : after.pendings.get? connection =
    (before.pendings.get? connection).map PendingConnection.listen
  old : ∀ other, other ≠ connection → before.pendingConnection = some other →
    after.pendings.get? other =
      (before.pendings.get? other).map PendingConnection.replaceAsDuplicate
  others : ∀ other, other ≠ connection → before.pendingConnection ≠ some other →
    after.pendings.get? other = before.pendings.get? other
  reporting : ∀ managed record, after.managed.get? managed = some record →
    record.listening = true → record.replacedAsDuplicate = true
  managed : ∀ managed, after.managed.has managed = before.managed.has managed

theorem Accepts.waiting (haccepts : Accepts connection state after) :
    after.waiting = state.waiting := by
  obtain ⟨output, hendpoint, hbuffer, -⟩ := haccepts.endpoint
  simp only [ConnectionManager.waiting, hendpoint]
  exact hbuffer

theorem Accepts.handsOver (haccepts : Accepts connection state after) : HandsOver state after := by
  obtain ⟨output, hendpoint, -, -⟩ := haccepts.endpoint
  refine .inl ⟨haccepts.flushed, haccepts.resolved, fun managed himpossible ↦ ?_⟩
  rw [hendpoint] at himpossible
  cases himpossible

/-- Assumes: the invariant, and a pending connection that may become the endpoint's. -/
theorem Invariant.accepts {pending : PendingConnection} (hinvariant : Invariant state)
    (hpending : state.pendings.get? connection = some pending) (hfresh : Fresh pending)
    (haccepts : Accepts connection state after) : Invariant after := by
  obtain ⟨output, hendpoint, hbuffer, hpromised⟩ := haccepts.endpoint
  have hcurrent := pendingConnection_of_connecting hendpoint
  have hwaiting := haccepts.waiting
  refine ⟨⟨?_, ?_, ?_, ?_⟩, ?_, ?_, ?_, haccepts.failed.trans hinvariant.unfailed⟩
  · intro next buffer hnext
    rw [hendpoint] at hnext
    cases hnext
    exact hpromised
  · rw [haccepts.resolved, haccepts.rejected, haccepts.pushes, hwaiting]
    exact hinvariant.books.accounted
  · rw [haccepts.flushed, haccepts.resolved]
    exact hinvariant.books.handed
  · rw [haccepts.resolved, hwaiting]
    exact hinvariant.books.ordered
  · intro other record hrecord
    by_cases hother : other = connection
    · subst hother
      have hfits := hinvariant.fits other pending hpending
      rw [haccepts.own, hpending] at hrecord
      cases hrecord
      refine ⟨fun _ ↦ ⟨hfresh.running, hfresh.new, ?_, ?_⟩, absurd hcurrent, fun hentry ↦ ?_⟩
      · simp only [PendingConnection.listen, hfresh.connected]
      · simp only [PendingConnection.listen, hfresh.disconnected]
      · exact hfits.entry (haccepts.connecting ▸ hentry)
    · have hnot : after.pendingConnection ≠ some other := by
        rw [hcurrent]
        exact fun hsame ↦ hother (Option.some.inj hsame).symm
      by_cases hold : state.pendingConnection = some other
      · rw [haccepts.old other hother hold] at hrecord
        obtain ⟨former, hformer, hreplaced⟩ := Option.map_eq_some_iff.mp hrecord
        have hfits := hinvariant.fits other former hformer
        subst hreplaced
        refine ⟨fun h ↦ absurd h hnot, fun _ himpossible ↦ (nomatch himpossible), fun hentry ↦ ?_⟩
        exact ⟨(hfits.entry (haccepts.connecting ▸ hentry)).1,
          fun himpossible ↦ nomatch himpossible⟩
      · refine hinvariant.fits_others (haccepts.others other hother hold) ?_ ?_ hrecord
        · exact ⟨fun h ↦ absurd h hnot, fun h ↦ absurd h hold⟩
        · rw [haccepts.connecting]
          exact id
  · intro other hpresent
    by_cases hother : other = connection
    · rw [hother, OrderedMap.has, haccepts.own, hpending]
      rfl
    · have hbefore : state.connecting = some other := by
        rw [hcurrent, haccepts.connecting] at hpresent
        exact hpresent.resolve_left fun hsame ↦ hother (Option.some.inj hsame).symm
      have hhas := hinvariant.present other (.inr hbefore)
      unfold OrderedMap.has at hhas ⊢
      by_cases hold : state.pendingConnection = some other
      · rwa [haccepts.old other hother hold, Option.isSome_map]
      · rwa [haccepts.others other hother hold]
  · intro managed record hrecord hlistening hnew
    rw [haccepts.reporting managed record hrecord hlistening] at hnew
    cases hnew

/-- Assumes: the invariant, and a pending connection that is not the endpoint's. The manager accepts
it, or refuses it because it has an endpoint and this node offers. -/
theorem Invariant.onNewConnection (hinvariant : Invariant state) (offerer : Offerer)
    (hother : state.pendingConnection ≠ some connection) :
    Accepts connection state (state.onNewConnection offerer connection).2 ∧
        (state.onNewConnection offerer connection).1 = true ∧
        (state.endpoint = none ∨ offerer = .remoteNode) ∨
      (state.onNewConnection offerer connection).2 = state ∧
        (state.onNewConnection offerer connection).1 = false ∧
        (state.endpoint ≠ none ∧ offerer = .localNode) := by
  rcases hendpoint : state.endpoint with _ | ⟨former, output⟩ | former
  · have hresult : state.onNewConnection offerer connection =
        (true, { state with
          endpoint := some (.connecting connection ⟨[], []⟩)
          pendings := state.pendings.adjust connection PendingConnection.listen }) := by
      simp only [ConnectionManager.onNewConnection, acceptNewConnection, hendpoint, if_true,
        adjustPending]
    rw [hresult]
    have hnone : state.pendingConnection = none := by simp only [pendingConnection, hendpoint]
    refine .inl ⟨⟨⟨⟨[], []⟩, rfl, ?_, rfl⟩, rfl, rfl, rfl, rfl, rfl, rfl, ?_, ?_, ?_, ?_,
      fun _ ↦ rfl⟩, rfl, .inl rfl⟩
    · simp only [waiting, hendpoint]
    · exact OrderedMap.get?_adjust_self _ _ _
    · intro other _ hold
      rw [hnone] at hold
      cases hold
    · exact fun other hne _ ↦ OrderedMap.get?_adjust_of_ne _ _ hne
    · intro managed record hrecord hlistening
      by_contra hnew
      have hconnected := hinvariant.reporting managed record hrecord hlistening
        (Bool.eq_false_of_not_eq_true hnew)
      rw [hendpoint] at hconnected
      cases hconnected
  · cases offerer with
    | localNode =>
      have hresult : state.onNewConnection .localNode connection = (false, state) := by
        simp only [ConnectionManager.onNewConnection, acceptNewConnection, hendpoint,
          Bool.false_eq_true, if_false]
      rw [hresult]
      exact .inr ⟨rfl, rfl, Option.some_ne_none _, rfl⟩
    | remoteNode =>
      have hresult : state.onNewConnection .remoteNode connection =
          (true, { state with
            endpoint := some (.connecting connection output)
            pendings := (state.pendings.adjust former
              PendingConnection.replaceAsDuplicate).adjust connection
                PendingConnection.listen }) := by
        simp only [ConnectionManager.onNewConnection, acceptNewConnection, hendpoint, if_true,
          adjustPending, replaceAsDuplicate, keptBuffer]
      have hcurrent := pendingConnection_of_connecting hendpoint
      have hne : connection ≠ former := by
        rintro rfl
        exact hother hcurrent
      rw [hresult]
      refine .inl ⟨⟨⟨output, rfl, ?_, hinvariant.books.promised former output hendpoint⟩, rfl, rfl,
        rfl, rfl, rfl, rfl, ?_, ?_, ?_, ?_, fun _ ↦ rfl⟩, rfl, .inr rfl⟩
      · simp only [waiting, hendpoint]
      · rw [OrderedMap.get?_adjust_self, OrderedMap.get?_adjust_of_ne _ _ hne]
      · intro other hnew hold
        rw [hcurrent] at hold
        cases hold
        rw [OrderedMap.get?_adjust_of_ne _ _ hnew, OrderedMap.get?_adjust_self]
      · intro other hnew hold
        have hdiffers : other ≠ former := by
          rintro rfl
          exact hold hcurrent
        rw [OrderedMap.get?_adjust_of_ne _ _ hnew, OrderedMap.get?_adjust_of_ne _ _ hdiffers]
      · intro managed record hrecord hlistening
        by_contra hnew
        exact hinvariant.not_reporting hendpoint hrecord hlistening
          (Bool.eq_false_of_not_eq_true hnew)
  · cases offerer with
    | localNode =>
      have hresult : state.onNewConnection .localNode connection = (false, state) := by
        simp only [ConnectionManager.onNewConnection, acceptNewConnection, hendpoint,
          Bool.false_eq_true, if_false]
      rw [hresult]
      exact .inr ⟨rfl, rfl, Option.some_ne_none _, rfl⟩
    | remoteNode =>
      have hresult : state.onNewConnection .remoteNode connection =
          (true, { state with
            endpoint := some (.connecting connection ⟨[], []⟩)
            managed := state.managed.adjust former fun old ↦
              { old with replacedAsDuplicate := true }
            pendings := state.pendings.adjust connection PendingConnection.listen }) := by
        simp only [ConnectionManager.onNewConnection, acceptNewConnection, hendpoint, if_true,
          adjustPending, replaceAsDuplicate, keptBuffer]
      have hnone : state.pendingConnection = none := by simp only [pendingConnection, hendpoint]
      rw [hresult]
      refine .inl ⟨⟨⟨⟨[], []⟩, rfl, ?_, rfl⟩, rfl, rfl, rfl, rfl, rfl, rfl, ?_, ?_, ?_, ?_,
        fun _ ↦ OrderedMap.has_adjust _ _ _ _⟩, rfl, .inr rfl⟩
      · simp only [waiting, hendpoint]
      · exact OrderedMap.get?_adjust_self _ _ _
      · intro other _ hold
        rw [hnone] at hold
        cases hold
      · exact fun other hne _ ↦ OrderedMap.get?_adjust_of_ne _ _ hne
      · intro managed record hrecord hlistening
        by_cases hformer : managed = former
        · subst hformer
          rw [OrderedMap.get?_adjust_self] at hrecord
          obtain ⟨old, -, hreplaced⟩ := Option.map_eq_some_iff.mp hrecord
          rw [← hreplaced]
        · rw [OrderedMap.get?_adjust_of_ne _ _ hformer] at hrecord
          by_contra hnew
          have hconnected := hinvariant.reporting managed record hrecord hlistening
            (Bool.eq_false_of_not_eq_true hnew)
          rw [hendpoint] at hconnected
          exact hformer (by cases hconnected; rfl)

/-- Assumes: the invariant. A pending connection that did not exist comes in, and may become the
connector's entry. -/
theorem Invariant.created {pending : PendingConnection} (entry : Option ℕ)
    (hinvariant : Invariant state) (hnew : state.pendings.has connection = false)
    (hfresh : Fresh pending)
    (hentry : ∀ other, entry = some other →
      state.connecting = some other ∨ other = connection ∧ pending.attached = true) :
    Invariant { state with
      pendings := state.pendings.set connection pending
      connecting := entry } where
  books := ⟨hinvariant.books.promised, hinvariant.books.accounted, hinvariant.books.handed,
    hinvariant.books.ordered⟩
  fits := by
    intro other record hrecord
    by_cases hother : other = connection
    · subst hother
      have hown : (state.pendings.set other pending).get? other = some record := hrecord
      rw [OrderedMap.get?_set_self] at hown
      cases hown
      refine ⟨fun hcurrent ↦ ?_, fun _ _ ↦ ⟨hfresh.disconnected, .inl hfresh.connected⟩,
        fun hafter ↦ ?_⟩
      · have hhas := hinvariant.present other (.inl hcurrent)
        rw [hnew] at hhas
        cases hhas
      · rcases hentry other hafter with hbefore | ⟨-, hattached⟩
        · have hhas := hinvariant.present other (.inr hbefore)
          rw [hnew] at hhas
          cases hhas
        · exact ⟨hattached, fun _ ↦ hfresh.running⟩
    · refine hinvariant.fits_others (OrderedMap.get?_set_of_ne _ _ hother) Iff.rfl ?_ hrecord
      exact fun hafter ↦ (hentry other hafter).resolve_right fun h ↦ hother h.1
  present := by
    rintro other (hcurrent | hafter)
    · exact OrderedMap.has_set.mpr (.inr (hinvariant.present other (.inl hcurrent)))
    · rcases hentry other hafter with hbefore | ⟨hsame, -⟩
      · exact OrderedMap.has_set.mpr (.inr (hinvariant.present other (.inr hbefore)))
      · exact OrderedMap.has_set.mpr (.inl hsame)
  reporting := hinvariant.reporting
  unfailed := hinvariant.unfailed

theorem fresh_opened (wiring : Wiring) : Fresh (PendingConnection.opened wiring) :=
  ⟨rfl, rfl, rfl, rfl⟩

theorem fresh_received : Fresh PendingConnection.received := ⟨rfl, rfl, rfl, rfl⟩

/-- Assumes: the invariant. What a connector hands out is a new pending connection or its entry. -/
theorem Invariant.createConnection {wiring : Wiring} {created : ℕ × ConnectionManager}
    (hinvariant : Invariant state)
    (hcreated : state.createConnection wiring connection = some created) :
    Invariant created.2 ∧ Unchanged state created.2 ∧ created.2.managed = state.managed ∧
      ∃ pending, created.2.pendings.get? created.1 = some pending ∧
        (state.pendingConnection ≠ some created.1 →
          (state.connecting = some created.1 → pending.replacedAsDuplicate = false) →
            Fresh pending) := by
  unfold ConnectionManager.createConnection at hcreated
  split at hcreated
  · rename_i existing hexisting
    cases hcreated
    obtain ⟨pending, hpending⟩ := Option.isSome_iff_exists.mp
      (hinvariant.present existing (.inr hexisting))
    have hfits := hinvariant.fits existing pending hpending
    refine ⟨hinvariant, .refl state, rfl, pending, hpending, fun hother hkept ↦ ?_⟩
    have hnew := hkept hexisting
    obtain ⟨hattached, hrunning⟩ := hfits.entry hexisting
    obtain ⟨hdisconnected, hconnected⟩ := hfits.silent hother hnew
    refine ⟨hrunning hnew, hnew, hconnected.resolve_right fun h ↦ ?_, hdisconnected⟩
    rw [hattached] at h
    exact absurd h.2 (by decide)
  · split_ifs at hcreated with hhas
    cases hcreated
    refine ⟨hinvariant.created _ (Bool.eq_false_of_not_eq_true hhas) (fresh_opened wiring) ?_,
      ⟨rfl, rfl, rfl, rfl, rfl⟩, rfl, _, OrderedMap.get?_set_self _ _ _,
      fun _ _ ↦ fresh_opened wiring⟩
    intro other hother
    cases hother
    exact .inr ⟨rfl, rfl⟩

/-! ### The condition -/

/-- What the connector would hand out for the remote node was replaced as a duplicate. -/
def entryReplaced (state : ConnectionManager) : Bool :=
  match state.connecting with
  | some existing =>
    (state.pendings.get? existing).any fun pending ↦ pending.replacedAsDuplicate
  | none => false

/-- The two conditions under which a step keeps an endpoint that reports: a node that opens a
connection does not get one that was replaced, and the handshake that is rejected is not that of the
endpoint's pending connection. -/
def keepsBuffer (state : ConnectionManager) : Event → Bool
  | .send connect _ _ _ => !(connect && state.endpoint.isNone && state.entryReplaced)
  | .rejectHandshake connection => state.pendingConnection ≠ some connection
  | .connectionRequested .. | .handshakeRequest .. | .handshakeCompleted .. | .handshakeFailed ..
  | .socketDisconnected .. | .close .. | .disconnected .. => true

/-! ### The other events -/

/-- Assumes: the invariant, and an endpoint with a pending connection. A message may be pushed. -/
theorem Invariant.push {output : OutputBuffer} (hinvariant : Invariant state)
    (hendpoint : state.endpoint = some (.connecting connection output)) :
    Invariant state.push := by
  have hbooks := hinvariant.books.push hendpoint
  have hcurrent := pendingConnection_of_connecting hendpoint
  rw [push_of_connecting hendpoint] at hbooks ⊢
  refine ⟨hbooks, fun other record hrecord ↦ ?_, fun other hpresent ↦ ?_, ?_,
    hinvariant.unfailed⟩
  · refine hinvariant.fits_others rfl ?_ id hrecord
    rw [hcurrent]
    exact Iff.rfl
  · refine hinvariant.present other (hpresent.imp_left fun h ↦ ?_)
    rw [hcurrent]
    exact h
  · intro managed record hrecord hlistening hnew
    exact (hinvariant.not_reporting hendpoint hrecord hlistening hnew).elim

/-- Assumes: the invariant, and an endpoint with a pending connection. -/
theorem Invariant.sendOrBuffer {output : OutputBuffer} (hinvariant : Invariant state)
    (hendpoint : state.endpoint = some (.connecting connection output)) (buffering : Bool) :
    Invariant (state.sendOrBuffer buffering) := by
  unfold ConnectionManager.sendOrBuffer
  split_ifs
  · exact hinvariant.push hendpoint
  · exact hinvariant

/-- Nothing is handed over while a message is buffered. -/
theorem handsOver_sendOrBuffer {output : OutputBuffer} (hflushed : middle.flushed = state.flushed)
    (hresolved : middle.resolved = state.resolved)
    (hendpoint : middle.endpoint = some (.connecting connection output)) (buffering : Bool) :
    HandsOver state (middle.sendOrBuffer buffering) := by
  refine .inl ?_
  unfold ConnectionManager.sendOrBuffer
  split_ifs
  · rw [push_of_connecting hendpoint]
    exact ⟨hflushed, hresolved, fun _ himpossible ↦ nomatch himpossible⟩
  · rw [hendpoint]
    exact ⟨hflushed, hresolved, fun _ himpossible ↦ nomatch himpossible⟩

theorem entryReplaced_eq {pending : PendingConnection} (hentry : state.connecting = some connection)
    (hpending : state.pendings.get? connection = some pending) :
    state.entryReplaced = pending.replacedAsDuplicate := by
  simp only [entryReplaced, hentry, hpending, Option.any_some]

/-- Assumes: the invariant, and no endpoint. The endpoint gets what the connector hands out, which
may report unless it was replaced. -/
theorem Invariant.connect (offerer : Offerer) {wiring : Wiring} {created : ℕ × ConnectionManager}
    (hinvariant : Invariant state) (hendpoint : state.endpoint = none)
    (hcreated : state.createConnection wiring connection = some created) :
    Unchanged state created.2 ∧
      Accepts created.1 created.2 (created.2.onNewConnection offerer created.1).2 ∧
      (state.entryReplaced = false →
        Invariant (created.2.onNewConnection offerer created.1).2) := by
  obtain ⟨hopened, hsame, -, pending, hpending, hfresh⟩ := hinvariant.createConnection hcreated
  have hnone : created.2.endpoint = none := hsame.endpoint.trans hendpoint
  have hother : state.pendingConnection ≠ some created.1 := by
    simp only [pendingConnection, hendpoint]
    exact (Option.some_ne_none _).symm
  have hdiffers : created.2.pendingConnection ≠ some created.1 := by
    simp only [pendingConnection, hnone]
    exact (Option.some_ne_none _).symm
  rcases hopened.onNewConnection offerer hdiffers with
    ⟨haccepts, -, -⟩ | ⟨-, -, hsome, -⟩
  · refine ⟨hsame, haccepts, fun hkept ↦ ?_⟩
    refine hopened.accepts hpending (hfresh hother fun hentry ↦ ?_) haccepts
    have hreused : created = (created.1, state) := by
      simp only [ConnectionManager.createConnection, hentry, Option.some.injEq] at hcreated
      exact hcreated.symm
    rw [hreused] at hpending
    exact (entryReplaced_eq hentry hpending).symm.trans hkept
  · exact absurd hnone hsome

/-- Assumes: the invariant. A call of `send` hands nothing over, and keeps the invariant if it meets
the condition. -/
theorem Invariant.send {offerer : Offerer} {connect buffering : Bool} {wiring : Wiring}
    (hinvariant : Invariant state)
    (hnext : state.send offerer connect buffering wiring connection = some after) :
    HandsOver state after ∧
      (state.keepsBuffer (.send connect buffering wiring connection) = true → Invariant after) := by
  have hidle := (Unchanged.refl state).handsOver
  unfold ConnectionManager.send at hnext
  rcases hendpoint : state.endpoint with _ | ⟨current, output⟩ | current
  · simp only [hendpoint] at hnext
    split_ifs at hnext with hconnect
    · obtain ⟨created, hcreated, rfl⟩ := Option.map_eq_some_iff.mp hnext
      obtain ⟨hsame, haccepts, hinvariant'⟩ :=
        hinvariant.connect offerer hendpoint hcreated
      obtain ⟨output, hconnecting, -, -⟩ := haccepts.endpoint
      refine ⟨handsOver_sendOrBuffer (haccepts.flushed.trans hsame.flushed)
        (haccepts.resolved.trans hsame.resolved) hconnecting buffering, fun hkeeps ↦ ?_⟩
      refine (hinvariant' ?_).sendOrBuffer hconnecting buffering
      simpa [keepsBuffer, hconnect, hendpoint] using hkeeps
    · cases hnext
      exact ⟨hidle, fun _ ↦ hinvariant⟩
  · simp only [hendpoint] at hnext
    cases hnext
    split_ifs
    · exact ⟨handsOver_sendOrBuffer rfl rfl hendpoint buffering,
        fun _ ↦ hinvariant.sendOrBuffer hendpoint buffering⟩
    · exact ⟨hidle, fun _ ↦ hinvariant⟩
  · have hsame : state.sendOrBuffer buffering = state := by
      unfold ConnectionManager.sendOrBuffer
      simp only [ConnectionManager.push, hendpoint, ite_self]
    simp only [hendpoint, hsame, ite_self] at hnext
    cases hnext
    exact ⟨hidle, fun _ ↦ hinvariant⟩

/-- Assumes: the invariant. -/
theorem Invariant.connectionRequested {offerer : Offerer} {wiring : Wiring}
    (hinvariant : Invariant state)
    (hnext : state.connectionRequested offerer wiring connection = some after) :
    Invariant after ∧ HandsOver state after := by
  unfold ConnectionManager.connectionRequested at hnext
  split_ifs at hnext with hentry
  obtain ⟨created, hcreated, rfl⟩ := Option.map_eq_some_iff.mp hnext
  obtain ⟨hopened, hsame, -, pending, hpending, hfresh⟩ := hinvariant.createConnection hcreated
  have hnone : state.connecting = none := Option.not_isSome_iff_eq_none.mp hentry
  have hother : state.pendingConnection ≠ some created.1 := by
    unfold ConnectionManager.createConnection at hcreated
    simp only [hnone] at hcreated
    split_ifs at hcreated with hhas
    cases hcreated
    exact fun hcurrent ↦ hhas (hinvariant.present connection (.inl hcurrent))
  have hmay : Fresh pending := hfresh hother fun hentry ↦ absurd (hnone.symm.trans hentry) (by simp)
  have hdiffers : created.2.pendingConnection ≠ some created.1 := by
    unfold pendingConnection at hother ⊢
    rwa [hsame.endpoint]
  rcases hopened.onNewConnection offerer hdiffers with
    ⟨haccepts, -, -⟩ | ⟨hrefused, -, -⟩
  · exact ⟨hopened.accepts hpending hmay haccepts, hsame.handsOver_trans haccepts.handsOver⟩
  · rw [hrefused]
    exact ⟨hopened, hsame.handsOver⟩

/-- Assumes: the invariant. -/
theorem Invariant.handshakeRequest {offerer : Offerer} {managed : ℕ} (hinvariant : Invariant state)
    (hnext : state.handshakeRequest offerer connection managed = some after) :
    Invariant after ∧ HandsOver state after := by
  unfold ConnectionManager.handshakeRequest at hnext
  split_ifs at hnext with himpossible
  have hnew : state.pendings.has connection = false :=
    Bool.eq_false_of_not_eq_true (not_or.mp himpossible).1
  have hcreated := hinvariant.created state.connecting hnew fresh_received
    fun other hentry ↦ .inl hentry
  have hpending : (state.pendings.set connection PendingConnection.received).get? connection =
      some PendingConnection.received := OrderedMap.get?_set_self _ _ _
  have hother : state.pendingConnection ≠ some connection := by
    intro hcurrent
    rw [hinvariant.present connection (.inl hcurrent)] at hnew
    cases hnew
  simp only [Option.some.injEq] at hnext
  rcases hcreated.onNewConnection offerer hother with
    ⟨haccepts, haccepted, -⟩ | ⟨hrefused, hnot, -⟩
  · rw [haccepted, if_pos rfl] at hnext
    subst hnext
    have hwaits := hcreated.accepts hpending fresh_received haccepts
    obtain ⟨output, hendpoint, hbuffer, -⟩ := haccepts.endpoint
    obtain ⟨hafter, hconnected, hflushed, hresolved⟩ := hwaits.complete_own hendpoint managed
    refine ⟨hafter, .inr ⟨managed, hconnected, ?_, ?_⟩⟩
    · rw [hflushed, haccepts.flushed, hbuffer]
      rfl
    · rw [hresolved, haccepts.resolved, hbuffer]
      rfl
  · rw [hnot, if_neg Bool.false_ne_true, hrefused] at hnext
    subst hnext
    have hquiet := quiet_adjustPending connection PendingConnection.destroy
      { state with pendings := state.pendings.set connection PendingConnection.received }
    refine ⟨hcreated.quiet hquiet hpending ⟨fun hcurrent ↦ absurd hcurrent hother,
      fun _ _ ↦ ⟨rfl, .inl rfl⟩, fun hentry ↦ ?_⟩,
      .inl ⟨hquiet.flushed, hquiet.resolved, fun _ h ↦ h⟩⟩
    rw [hinvariant.present connection (.inr hentry)] at hnew
    cases hnew

/-- The listeners of a managed connection are removed. -/
def silenced (managed : ℕ) (state : ConnectionManager) : ConnectionManager :=
  { state with managed := state.managed.adjust managed fun current ↦
      { current with listening := false } }

/-- Assumes: the invariant, and a managed connection that loses its listeners. Those that still
report are as before. -/
theorem Invariant.silenced_reporting (hinvariant : Invariant state) {managed other : ℕ}
    {record : ManagedConnection} (hrecord : (state.silenced managed).managed.get? other = some record)
    (hlistening : record.listening = true) (hnew : record.replacedAsDuplicate = false) :
    other ≠ managed ∧ state.endpoint = some (.connected other) := by
  have hget : (state.managed.adjust managed fun current ↦
      { current with listening := false }).get? other = some record := hrecord
  by_cases hother : other = managed
  · rw [hother, OrderedMap.get?_adjust_self] at hget
    obtain ⟨former, -, hsilent⟩ := Option.map_eq_some_iff.mp hget
    rw [← hsilent] at hlistening
    cases hlistening
  · rw [OrderedMap.get?_adjust_of_ne _ _ hother] at hget
    exact ⟨hother, hinvariant.reporting other record hget hlistening hnew⟩

/-- Assumes: the invariant. A managed connection that is replaced, or had its event, changes
nothing; another one is the endpoint's. -/
theorem Invariant.disconnected {managed : ℕ} (hinvariant : Invariant state)
    (hnext : state.disconnected managed = some after) :
    Invariant after ∧ HandsOver state after ∧
      ((∀ record, state.managed.get? managed = some record →
        record.replacedAsDuplicate = true ∨ record.listening = false) → Unchanged state after) := by
  unfold ConnectionManager.disconnected at hnext
  split at hnext
  · rename_i record hrecord
    split_ifs at hnext with hreports
    · cases hnext
      have hendpoint := hinvariant.reporting managed record hrecord hreports.1 hreports.2
      change Invariant (state.silenced managed).onDisconnected ∧
        HandsOver state (state.silenced managed).onDisconnected ∧ _
      have hbooks := hinvariant.books.onDisconnected
      have hnone : state.pendingConnection = none := by simp only [pendingConnection, hendpoint]
      have hsilent : (state.silenced managed).endpoint = some (.connected managed) := hendpoint
      rw [onDisconnected_of_connected hendpoint] at hbooks
      rw [onDisconnected_of_connected hsilent]
      refine ⟨?_, ?_, fun hobsolete ↦ ?_⟩
      · refine ⟨⟨hbooks.promised, hbooks.accounted, hbooks.handed, hbooks.ordered⟩,
          fun other pending hpending ↦ ?_, fun other hpresent ↦ ?_,
          fun other current hcurrent hlistening hnew ↦ ?_, hinvariant.unfailed⟩
        · refine hinvariant.fits_others rfl ?_ id hpending
          rw [hnone]
          exact Iff.rfl
        · refine hinvariant.present other (hpresent.imp_left fun h ↦ by cases h)
        · obtain ⟨hne, hconnected⟩ := hinvariant.silenced_reporting hcurrent hlistening hnew
          rw [hendpoint] at hconnected
          exact absurd (by cases hconnected; rfl) hne
      · exact .inl ⟨rfl, rfl, fun _ himpossible ↦ by cases himpossible⟩
      · rcases hobsolete record hrecord with hreplaced | hdeaf
        · rw [hreplaced] at hreports
          exact absurd hreports.2 (by decide)
        · rw [hdeaf] at hreports
          exact absurd hreports.1 (by decide)
    · cases hnext
      have hunchanged : Unchanged state (state.silenced managed) := ⟨rfl, rfl, rfl, rfl, rfl⟩
      refine ⟨⟨⟨hinvariant.books.promised, hinvariant.books.accounted, hinvariant.books.handed,
        hinvariant.books.ordered⟩, fun other pending hpending ↦ ?_, hinvariant.present,
        fun other current hcurrent hlistening hnew ↦ ?_, hinvariant.unfailed⟩,
        hunchanged.handsOver, fun _ ↦ hunchanged⟩
      · exact hinvariant.fits_others rfl Iff.rfl id hpending
      · exact (hinvariant.silenced_reporting hcurrent hlistening hnew).2
  · cases hnext

/-! ### Runs -/

/-- Assumes: the invariant. Every step hands over what it must, and one that meets the condition
keeps the invariant. -/
theorem Invariant.next {offerer : Offerer} {event : Event} (hinvariant : Invariant state)
    (hnext : state.next offerer event = some after) :
    HandsOver state after ∧ (state.keepsBuffer event = true → Invariant after) := by
  cases event with
  | send connect buffering wiring connection => exact hinvariant.send hnext
  | connectionRequested wiring connection =>
    obtain ⟨hafter, hhands⟩ := hinvariant.connectionRequested hnext
    exact ⟨hhands, fun _ ↦ hafter⟩
  | handshakeRequest connection managed =>
    obtain ⟨hafter, hhands⟩ := hinvariant.handshakeRequest hnext
    exact ⟨hhands, fun _ ↦ hafter⟩
  | handshakeCompleted connection managed =>
    have hreports := hinvariant.handshakeCompleted hnext
    exact ⟨hreports.handsOver, fun _ ↦ hreports.invariant⟩
  | rejectHandshake connection =>
    refine ⟨(quiet_rejectHandshake hnext).1.unchanged.handsOver, fun hkeeps ↦ ?_⟩
    exact hinvariant.rejectHandshake (by simpa [keepsBuffer] using hkeeps) hnext
  | handshakeFailed connection =>
    have hreports := hinvariant.handshakeFailed hnext
    exact ⟨hreports.handsOver, fun _ ↦ hreports.invariant⟩
  | socketDisconnected connection =>
    have hreports := hinvariant.socketDisconnected hnext
    exact ⟨hreports.handsOver, fun _ ↦ hreports.invariant⟩
  | close connection =>
    rw [ConnectionManager.next] at hnext
    split_ifs at hnext with hhas
    cases hnext
    obtain ⟨pending, hpending⟩ := Option.isSome_iff_exists.mp hhas
    have hreports := hinvariant.close hpending
    exact ⟨hreports.handsOver, fun _ ↦ hreports.invariant⟩
  | disconnected managed =>
    obtain ⟨hafter, hhands, -⟩ := hinvariant.disconnected hnext
    exact ⟨hhands, fun _ ↦ hafter⟩

/-- An event of a connection that was replaced as a duplicate or is closed already. -/
def obsolete (state : ConnectionManager) : Event → Bool
  | .handshakeCompleted connection _ | .rejectHandshake connection | .handshakeFailed connection
  | .socketDisconnected connection | .close connection =>
    (state.pendings.get? connection).any fun pending ↦
      pending.replacedAsDuplicate || pending.stopped
  | .disconnected managed =>
    (state.managed.get? managed).any fun record ↦ record.replacedAsDuplicate || !record.listening
  | .send .. | .connectionRequested .. | .handshakeRequest .. => false

/-- Assumes: the invariant. The endpoint's pending connection is neither replaced nor closed. -/
theorem Invariant.obsolete_other (hinvariant : Invariant state)
    (hobsolete : ((state.pendings.get? connection).any fun pending ↦
      pending.replacedAsDuplicate || pending.stopped) = true) :
    state.pendingConnection ≠ some connection := by
  intro hcurrent
  obtain ⟨pending, hpending, hflags⟩ := (Option.any_eq_true _ _).mp hobsolete
  obtain ⟨hrunning, hnew, -⟩ := (hinvariant.fits connection pending hpending).current hcurrent
  rw [hrunning, hnew] at hflags
  cases hflags

/-- Assumes: the invariant. Such an event changes neither the endpoint nor the books. -/
theorem Invariant.obsolete {offerer : Offerer} {event : Event} (hinvariant : Invariant state)
    (hobsolete : state.obsolete event = true) (hnext : state.next offerer event = some after) :
    Unchanged state after := by
  cases event with
  | send connect buffering wiring connection => cases hobsolete
  | connectionRequested wiring connection => cases hobsolete
  | handshakeRequest connection managed => cases hobsolete
  | handshakeCompleted connection managed =>
    exact (hinvariant.handshakeCompleted hnext).others (hinvariant.obsolete_other hobsolete)
  | rejectHandshake connection => exact (quiet_rejectHandshake hnext).1.unchanged
  | handshakeFailed connection =>
    exact (hinvariant.handshakeFailed hnext).others (hinvariant.obsolete_other hobsolete)
  | socketDisconnected connection =>
    exact (hinvariant.socketDisconnected hnext).others (hinvariant.obsolete_other hobsolete)
  | close connection =>
    have hother := hinvariant.obsolete_other hobsolete
    rw [ConnectionManager.next] at hnext
    split_ifs at hnext with hhas
    cases hnext
    obtain ⟨pending, hpending⟩ := Option.isSome_iff_exists.mp hhas
    exact (hinvariant.close hpending).others hother
  | disconnected managed =>
    refine (hinvariant.disconnected hnext).2.2 fun record hrecord ↦ ?_
    simpa [ConnectionManager.obsolete, hrecord] using hobsolete

/-- What is to hold of the buffer in a state: nothing is lost, doubled or out of order; while
messages wait, a timer runs, and when the pending connection is closed their promise is rejected;
whatever becomes connected gets all that waits; events of connections that are replaced or closed
change nothing; and no listener has thrown. -/
structure SettlesBuffers (offerer : Offerer) (state : ConnectionManager) : Prop where
  books : Books state
  running : ∀ connection output, state.endpoint = some (.connecting connection output) →
    ∃ pending, state.pendings.get? connection = some pending ∧ pending.stopped = false
  closes : ∀ connection output, state.endpoint = some (.connecting connection output) →
    ∃ after, state.next offerer (.close connection) = some after ∧ after.endpoint = none ∧
      after.rejected = state.rejected ++ output.buffer
  handsOver : ∀ event after, state.next offerer event = some after → HandsOver state after
  obsolete : ∀ event after, state.obsolete event = true → state.next offerer event = some after →
    Unchanged state after
  unfailed : state.failed = false

/-- Assumes: the invariant. -/
theorem Invariant.settlesBuffers (hinvariant : Invariant state) (offerer : Offerer) :
    SettlesBuffers offerer state where
  books := hinvariant.books
  running := by
    intro connection output hendpoint
    have hcurrent := pendingConnection_of_connecting hendpoint
    obtain ⟨pending, hpending⟩ := Option.isSome_iff_exists.mp
      (hinvariant.present connection (.inl hcurrent))
    exact ⟨pending, hpending, ((hinvariant.fits connection pending hpending).current hcurrent).1⟩
  closes := by
    intro connection output hendpoint
    have hhas := hinvariant.present connection (.inl (pendingConnection_of_connecting hendpoint))
    obtain ⟨-, hnone, hrejected, -⟩ := hinvariant.close_own hendpoint
    exact ⟨_, if_pos hhas, hnone, hrejected⟩
  handsOver := fun _ _ hnext ↦ (hinvariant.next hnext).1
  obsolete := fun _ _ hobsolete hnext ↦ hinvariant.obsolete hobsolete hnext
  unfailed := hinvariant.unfailed

/-- In every run whose steps meet the condition, every state settles its buffer. -/
theorem settlesBuffers_of_reachable {offerer : Offerer}
    (hreachable : Reachable (next offerer)
      (fun state event ↦ state.keepsBuffer event = true) (· = start) state) :
    SettlesBuffers offerer state := by
  have hinvariant : Invariant state :=
    hreachable.invariant (fun _ hstart ↦ hstart ▸ invariant_start)
      fun _ _ _ _ hbefore hkeeps hnext ↦ (hbefore.next hnext).2 hkeeps
  exact hinvariant.settlesBuffers offerer

/-- A run in which the buffer of two messages moves to the connection that replaces the first, while
the first closes behind it. -/
def replacedRun : Option ConnectionManager :=
  checkedRun (next .remoteNode) keepsBuffer start
    [.send true true .outgoing 0, .send true true .outgoing 1, .handshakeRequest 1 0, .close 0,
      .socketDisconnected 0]

/-- The buffer is settled in that run, which hands both messages to the same connection. -/
theorem settled_after_replacement : ∃ state, replacedRun = some state ∧
    state.flushed = [(0, 0), (0, 1)] ∧ SettlesBuffers .remoteNode state := by
  obtain ⟨state, hrun, hflushed⟩ : ∃ state, replacedRun = some state ∧
      decide (state.flushed = [(0, 0), (0, 1)]) = true :=
    (Option.any_eq_true _ _).mp (by decide +kernel)
  exact ⟨state, hrun, of_decide_eq_true hflushed,
    settlesBuffers_of_reachable (Reachable.of_checkedRun _ (fun _ _ hcheck ↦ hcheck)
      (.start rfl) hrun)⟩

/-- A run in which the handshake on the endpoint's pending connection is rejected. -/
def rejectedRun : Option ConnectionManager :=
  run (next .localNode) start [.send true true .requested 0, .rejectHandshake 0]

/-- Its message waits for a pending connection that is closed without a word: closing it again does
not reject the promise, so the buffer is not settled in every run. -/
theorem not_settled_after_rejection : ¬ ∀ offerer state,
    Reachable (next offerer) (fun _ _ ↦ True) (· = start) state →
      SettlesBuffers offerer state := by
  intro hall
  obtain ⟨state, hrun, hstuck⟩ : ∃ state, rejectedRun = some state ∧
      (decide (state.endpoint = some (.connecting 0 ⟨[0], [0]⟩)) &&
        decide (((state.next .localNode (.close 0)).map ConnectionManager.endpoint) =
          some (some (.connecting 0 ⟨[0], [0]⟩)))) = true :=
    (Option.any_eq_true _ _).mp (by decide +kernel)
  obtain ⟨hendpoint, hclosed⟩ := Bool.and_eq_true_iff.mp hstuck
  have hreachable : Reachable (next .localNode) (fun _ _ ↦ True) (· = start) state :=
    Reachable.of_run _ (fun _ _ _ ↦ trivial) (.start rfl) hrun
  obtain ⟨after, hnext, hnone, -⟩ :=
    (hall .localNode state hreachable).closes 0 _ (of_decide_eq_true hendpoint)
  have hstill := of_decide_eq_true hclosed
  rw [hnext, Option.map_some, hnone] at hstill
  cases hstill

end ConnectionManager

end PomboStorageNode.Dht
