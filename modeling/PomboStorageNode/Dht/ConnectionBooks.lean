import PomboStorageNode.Dht.ConnectionManager

/-!
# The books of buffered messages

Every buffered message waits, was handed to a connection, or had its promise rejected, and it is in
one of these places once; what was handed over and what still waits is in the order in which it was
buffered (`Books`). The listeners of the connection manager and a push keep the books. Most
callbacks only change a pending connection (`Quiet`) and so leave the endpoint and the books as they
are (`Unchanged`); a step that connects the endpoint hands over all that waits (`HandsOver`).
-/

set_option autoImplicit false

namespace PomboStorageNode.Dht

open Library

namespace ConnectionManager

variable {state middle after : ConnectionManager} {connection other : ℕ}

/-! ### Steps that leave the endpoint alone -/

/-- A pending connection becomes another and the connector may lose its entry; nothing else
happens. -/
structure Quiet (connection : ℕ) (change : PendingConnection → PendingConnection)
    (before after : ConnectionManager) : Prop where
  endpoint : after.endpoint = before.endpoint
  managed : after.managed = before.managed
  pushes : after.pushes = before.pushes
  flushed : after.flushed = before.flushed
  resolved : after.resolved = before.resolved
  rejected : after.rejected = before.rejected
  failed : after.failed = before.failed
  own : after.pendings.get? connection = (before.pendings.get? connection).map change
  others : ∀ other, other ≠ connection → after.pendings.get? other = before.pendings.get? other
  entry : ∀ other, after.connecting = some other → before.connecting = some other

theorem Quiet.refl (connection : ℕ) (state : ConnectionManager) :
    Quiet connection id state state where
  endpoint := rfl
  managed := rfl
  pushes := rfl
  flushed := rfl
  resolved := rfl
  rejected := rfl
  failed := rfl
  own := Option.map_id.symm ▸ rfl
  others := fun _ _ ↦ rfl
  entry := fun _ hentry ↦ hentry

theorem Quiet.trans {first second : PendingConnection → PendingConnection}
    (hfirst : Quiet connection first state middle) (hsecond : Quiet connection second middle after) :
    Quiet connection (second ∘ first) state after where
  endpoint := hsecond.endpoint.trans hfirst.endpoint
  managed := hsecond.managed.trans hfirst.managed
  pushes := hsecond.pushes.trans hfirst.pushes
  flushed := hsecond.flushed.trans hfirst.flushed
  resolved := hsecond.resolved.trans hfirst.resolved
  rejected := hsecond.rejected.trans hfirst.rejected
  failed := hsecond.failed.trans hfirst.failed
  own := by rw [hsecond.own, hfirst.own, Option.map_map]
  others := fun other hother ↦ (hsecond.others other hother).trans (hfirst.others other hother)
  entry := fun other hentry ↦ hfirst.entry other (hsecond.entry other hentry)

/-- Only the change of the record that is there matters. -/
theorem Quiet.congr {change other : PendingConnection → PendingConnection}
    {pending : PendingConnection} (hquiet : Quiet connection change state after)
    (hpending : state.pendings.get? connection = some pending)
    (hsame : change pending = other pending) : Quiet connection other state after where
  endpoint := hquiet.endpoint
  managed := hquiet.managed
  pushes := hquiet.pushes
  flushed := hquiet.flushed
  resolved := hquiet.resolved
  rejected := hquiet.rejected
  failed := hquiet.failed
  own := by rw [hquiet.own, hpending, Option.map_some, Option.map_some, hsame]
  others := hquiet.others
  entry := hquiet.entry

theorem quiet_adjustPending (connection : ℕ) (change : PendingConnection → PendingConnection)
    (state : ConnectionManager) :
    Quiet connection change state (state.adjustPending connection change) where
  endpoint := rfl
  managed := rfl
  pushes := rfl
  flushed := rfl
  resolved := rfl
  rejected := rfl
  failed := rfl
  own := OrderedMap.get?_adjust_self _ _ _
  others := fun _ hother ↦ OrderedMap.get?_adjust_of_ne _ _ hother
  entry := fun _ hentry ↦ hentry

theorem quiet_delFunc (connection : ℕ) (state : ConnectionManager) :
    Quiet connection (fun pending ↦ { pending with attached := false }) state
      (state.delFunc connection) where
  endpoint := rfl
  managed := rfl
  pushes := rfl
  flushed := rfl
  resolved := rfl
  rejected := rfl
  failed := rfl
  own := OrderedMap.get?_adjust_self _ _ _
  others := fun _ hother ↦ OrderedMap.get?_adjust_of_ne _ _ hother
  entry := fun _ hentry ↦ nomatch hentry

theorem Quiet.has {change : PendingConnection → PendingConnection}
    (hquiet : Quiet connection change state after) (other : ℕ) :
    after.pendings.has other = state.pendings.has other := by
  unfold OrderedMap.has
  by_cases hother : other = connection
  · rw [hother, hquiet.own, Option.isSome_map]
  · rw [hquiet.others other hother]

theorem Quiet.pendingConnection {change : PendingConnection → PendingConnection}
    (hquiet : Quiet connection change state after) :
    after.pendingConnection = state.pendingConnection := by
  unfold ConnectionManager.pendingConnection
  rw [hquiet.endpoint]

theorem Quiet.waiting {change : PendingConnection → PendingConnection}
    (hquiet : Quiet connection change state after) : after.waiting = state.waiting := by
  unfold ConnectionManager.waiting
  rw [hquiet.endpoint]

/-- The listener of the connector, with what becomes of its entry. -/
theorem quiet_delFuncListener (connection : ℕ) (pending : PendingConnection)
    (state : ConnectionManager) :
    Quiet connection
        (fun current ↦ { current with attached := current.attached && !pending.attached }) state
        (state.delFuncListener connection pending) ∧
      (state.delFuncListener connection pending).connecting =
        if pending.attached then none else state.connecting := by
  cases hattached : pending.attached with
  | true =>
    simp only [delFuncListener, hattached, if_true, Bool.not_true, Bool.and_false]
    exact ⟨quiet_delFunc connection state, rfl⟩
  | false =>
    simp only [delFuncListener, hattached, Bool.false_eq_true, if_false, Bool.not_false,
      Bool.and_true]
    exact ⟨Quiet.refl connection state, trivial⟩

/-! ### The books -/

/-- Every message is waiting, handed or rejected, in one place and once; what was handed and what
waits is in the order of the pushes. -/
structure Books (state : ConnectionManager) : Prop where
  promised : ∀ connection output, state.endpoint = some (.connecting connection output) →
    output.promised = output.buffer
  accounted : (state.resolved ++ state.rejected ++ state.waiting).Perm (List.range state.pushes)
  handed : state.flushed.map Prod.snd = state.resolved
  ordered : (state.resolved ++ state.waiting).Pairwise (· < ·)

theorem Books.quiet {change : PendingConnection → PendingConnection} (hbooks : Books state)
    (hquiet : Quiet connection change state after) : Books after where
  promised := by rw [hquiet.endpoint]; exact hbooks.promised
  accounted := by
    rw [hquiet.resolved, hquiet.rejected, hquiet.waiting, hquiet.pushes]
    exact hbooks.accounted
  handed := by rw [hquiet.flushed, hquiet.resolved]; exact hbooks.handed
  ordered := by rw [hquiet.resolved, hquiet.waiting]; exact hbooks.ordered

/-- Assumes: books of a state with a pending connection. The whole buffer is handed over. -/
theorem Books.onConnected {output : OutputBuffer} (hbooks : Books state)
    (hendpoint : state.endpoint = some (.connecting connection output)) (managed : ℕ) :
    Books (state.onConnected managed) := by
  have hpromised := hbooks.promised connection output hendpoint
  have hwaiting : state.waiting = output.buffer := by simp only [waiting, hendpoint]
  have haccounted := hbooks.accounted
  have hordered := hbooks.ordered
  rw [hwaiting] at haccounted hordered
  rw [onConnected_of_connecting hendpoint, hpromised]
  constructor
  · exact fun _ _ himpossible ↦ nomatch himpossible
  · refine List.Perm.trans ?_ haccounted
    simp only [waiting, List.append_nil, List.append_assoc]
    exact List.perm_append_comm.append_left state.resolved
  · have hsecond : (output.buffer.map fun message ↦ (managed, message)).map Prod.snd =
        output.buffer := by
      rw [List.map_map]
      exact List.map_id _
    simp only [List.map_append, hbooks.handed, hsecond]
  · simpa only [waiting, List.append_nil] using hordered

/-- The whole buffer is rejected. -/
theorem Books.onDisconnected (hbooks : Books state) : Books state.onDisconnected := by
  have haccounted := hbooks.accounted
  have hordered := hbooks.ordered
  rcases hendpoint : state.endpoint with _ | ⟨connection, output⟩ | managed
  · rw [onDisconnected_of_none hendpoint]
    exact hbooks
  · have hwaiting : state.waiting = output.buffer := by simp only [waiting, hendpoint]
    rw [hwaiting] at haccounted hordered
    rw [onDisconnected_of_connecting hendpoint, hbooks.promised connection output hendpoint]
    constructor
    · exact fun _ _ himpossible ↦ nomatch himpossible
    · simpa only [waiting, List.append_nil, List.append_assoc] using haccounted
    · exact hbooks.handed
    · simpa only [waiting, List.append_nil] using hordered.sublist (List.sublist_append_left _ _)
  · have hwaiting : state.waiting = [] := by simp only [waiting, hendpoint]
    rw [hwaiting] at haccounted hordered
    rw [onDisconnected_of_connected hendpoint]
    exact ⟨fun _ _ himpossible ↦ (nomatch himpossible), haccounted, hbooks.handed, hordered⟩

/-- A message that is pushed comes after all others. -/
theorem Books.push {output : OutputBuffer} (hbooks : Books state)
    (hendpoint : state.endpoint = some (.connecting connection output)) : Books state.push := by
  have hwaiting : state.waiting = output.buffer := by simp only [waiting, hendpoint]
  have haccounted := hbooks.accounted
  have hordered := hbooks.ordered
  rw [hwaiting] at haccounted hordered
  rw [push_of_connecting hendpoint]
  constructor
  · intro next buffer hnext
    cases hnext
    simp only [OutputBuffer.push, hbooks.promised connection output hendpoint]
  · simp only [waiting, OutputBuffer.push]
    rw [List.range_succ, ← List.append_assoc]
    exact haccounted.append_right [state.pushes]
  · exact hbooks.handed
  · simp only [waiting, OutputBuffer.push]
    rw [← List.append_assoc, List.pairwise_append]
    refine ⟨hordered, List.pairwise_singleton _ _, fun message hmessage last hlast ↦ ?_⟩
    have hmem : message ∈ state.resolved ++ state.rejected ++ output.buffer := by
      rcases List.mem_append.mp hmessage with hhanded | hwaits
      · exact List.mem_append_left _ (List.mem_append_left _ hhanded)
      · exact List.mem_append_right _ hwaits
    rw [List.mem_singleton.mp hlast]
    exact List.mem_range.mp (haccounted.mem_iff.mp hmem)

/-! ### What is handed over -/

/-- A step hands the waiting messages to the connection that becomes connected in it, or none
becomes connected and nothing is handed over. -/
def HandsOver (before after : ConnectionManager) : Prop :=
  (after.flushed = before.flushed ∧ after.resolved = before.resolved ∧
    ∀ managed, after.endpoint = some (.connected managed) →
      before.endpoint = some (.connected managed)) ∨
  ∃ managed, after.endpoint = some (.connected managed) ∧
    after.flushed = before.flushed ++ before.waiting.map (fun message ↦ (managed, message)) ∧
    after.resolved = before.resolved ++ before.waiting

/-- The endpoint and the books are as before. -/
structure Unchanged (before after : ConnectionManager) : Prop where
  endpoint : after.endpoint = before.endpoint
  pushes : after.pushes = before.pushes
  flushed : after.flushed = before.flushed
  resolved : after.resolved = before.resolved
  rejected : after.rejected = before.rejected

theorem Unchanged.refl (state : ConnectionManager) : Unchanged state state :=
  ⟨rfl, rfl, rfl, rfl, rfl⟩

theorem Unchanged.trans (hfirst : Unchanged state middle) (hsecond : Unchanged middle after) :
    Unchanged state after where
  endpoint := hsecond.endpoint.trans hfirst.endpoint
  pushes := hsecond.pushes.trans hfirst.pushes
  flushed := hsecond.flushed.trans hfirst.flushed
  resolved := hsecond.resolved.trans hfirst.resolved
  rejected := hsecond.rejected.trans hfirst.rejected

theorem Quiet.unchanged {change : PendingConnection → PendingConnection}
    (hquiet : Quiet connection change state after) : Unchanged state after :=
  ⟨hquiet.endpoint, hquiet.pushes, hquiet.flushed, hquiet.resolved, hquiet.rejected⟩

theorem Unchanged.handsOver (hunchanged : Unchanged state after) : HandsOver state after :=
  .inl ⟨hunchanged.flushed, hunchanged.resolved, fun _ hafter ↦ hunchanged.endpoint ▸ hafter⟩

theorem HandsOver.unchanged (hhands : HandsOver state middle) (hunchanged : Unchanged middle after) :
    HandsOver state after := by
  unfold HandsOver at hhands ⊢
  rwa [hunchanged.endpoint, hunchanged.flushed, hunchanged.resolved]

theorem Unchanged.waiting (hunchanged : Unchanged state after) : after.waiting = state.waiting := by
  unfold ConnectionManager.waiting
  rw [hunchanged.endpoint]

theorem Unchanged.handsOver_trans (hunchanged : Unchanged state middle)
    (hhands : HandsOver middle after) : HandsOver state after := by
  unfold HandsOver at hhands ⊢
  rwa [← hunchanged.endpoint, ← hunchanged.flushed, ← hunchanged.resolved, ← hunchanged.waiting]

end ConnectionManager

end PomboStorageNode.Dht
