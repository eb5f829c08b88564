import PomboStorageNode.Dht.CrossingConnections

/-!
# Two nodes that connect to each other at once

Each of two nodes opens a connection when it has something to send and no endpoint, and decides
alone what to do with a handshake request of the other: the one whose offering hash is smaller
refuses it while it has an endpoint, the other one replaces its own. The node that refuses never
loses its endpoint, and no connection of its own is refused (`Agrees`), so that once nothing is in
flight both nodes have the same connection or none (`crossing_converges`).
-/

set_option autoImplicit false

namespace PomboStorageNode.Dht

open Library Library.Transition

namespace Crossing

/-! ### What holds between the nodes -/

section Agreement

variable {side : Side} {offering replacing after : ConnectionManager}
  {attempts later : OrderedMap ℕ Attempt} {connection : ℕ}

/-- What holds between the node that refuses (on `side`) and the one that replaces. No connection of
the refusing node is refused, and it keeps the one it has opened. A connection that a node has
accepted is its endpoint, and the other node waits for it or is connected over it. -/
structure Agrees (side : Side) (offering replacing : ConnectionManager)
    (attempts : OrderedMap ℕ Attempt) : Prop where
  own : ∀ connection phase, attempts.get? connection = some ⟨side, phase⟩ →
    (phase = .requesting ∨ phase = .accepted) ∧ offering.pendingConnection = some connection ∨
      phase = .established ∧ offering.endpoint = some (.connected connection)
  taken : ∀ connection phase, attempts.get? connection = some ⟨side, phase⟩ →
    phase = .requesting ∨ replacing.endpoint = some (.connected connection)
  accepted : ∀ connection, attempts.get? connection = some ⟨side.other, .accepted⟩ →
    offering.endpoint = some (.connected connection) ∧
      replacing.pendingConnection = some connection
  established : ∀ connection, attempts.get? connection = some ⟨side.other, .established⟩ →
    offering.endpoint = some (.connected connection) ∧
      replacing.endpoint = some (.connected connection)
  offers : ∀ connection, offering.endpoint = some (.connected connection) →
    attempts.get? connection = some ⟨side, .established⟩ ∨
      attempts.get? connection = some ⟨side.other, .accepted⟩ ∨
      attempts.get? connection = some ⟨side.other, .established⟩
  replaces : ∀ connection, replacing.endpoint = some (.connected connection) →
    attempts.get? connection = some ⟨side.other, .established⟩ ∨
      attempts.get? connection = some ⟨side, .accepted⟩ ∨
      attempts.get? connection = some ⟨side, .established⟩

/-- Assumes: agreement. The refusing node has an endpoint when it has opened a connection. -/
theorem Agrees.own_endpoint {phase : Phase} (hagrees : Agrees side offering replacing attempts)
    (hattempt : attempts.get? connection = some ⟨side, phase⟩) : offering.endpoint ≠ none := by
  intro hnone
  rcases hagrees.own connection phase hattempt with ⟨-, hpending⟩ | ⟨-, hconnected⟩
  · simp only [ConnectionManager.pendingConnection, hnone] at hpending
    cases hpending
  · rw [hnone] at hconnected
    cases hconnected

/-- Assumes: agreement. A connected replacing node has its connection from the refusing one. -/
theorem Agrees.offering_of_replacing (hagrees : Agrees side offering replacing attempts)
    (hconnected : Connected replacing) : offering.endpoint ≠ none := by
  obtain ⟨managed, hmanaged⟩ := hconnected
  rcases hagrees.replaces managed hmanaged with hother | hown | hown
  · rw [(hagrees.established managed hother).1]
    exact fun himpossible ↦ nomatch himpossible
  · exact hagrees.own_endpoint hown
  · exact hagrees.own_endpoint hown

theorem pendingConnection_of_none {node : ConnectionManager} (hnone : node.endpoint = none) :
    node.pendingConnection = none := by
  simp only [ConnectionManager.pendingConnection, hnone]

theorem not_connected_of_pending {node : ConnectionManager} {managed : ℕ}
    (hpending : node.pendingConnection = some connection) :
    node.endpoint ≠ some (.connected managed) := by
  intro hconnected
  rw [pendingConnection_of_connected hconnected] at hpending
  cases hpending

/-- The refusing node waits for a connection that it has opened, until it is established. -/
theorem Agrees.pending_of_own {phase : Phase} (hagrees : Agrees side offering replacing attempts)
    (hattempt : attempts.get? connection = some ⟨side, phase⟩) (hphase : phase ≠ .established) :
    offering.pendingConnection = some connection := by
  rcases hagrees.own connection phase hattempt with ⟨-, hpending⟩ | ⟨hestablished, -⟩
  · exact hpending
  · exact absurd hestablished hphase

/-- A refusing node that waits for a connection has opened no other one, before and after a change
of the connection. -/
theorem Agrees.own_unique {other : ℕ} {phase : Phase}
    (hagrees : Agrees side offering replacing attempts)
    (hpending : offering.pendingConnection = some connection)
    (hothers : ∀ other, other ≠ connection → later.get? other = attempts.get? other)
    (hother : later.get? other = some ⟨side, phase⟩) : other = connection := by
  by_contra hne
  rw [hothers other hne] at hother
  rcases hagrees.own other phase hother with ⟨-, hcurrent⟩ | ⟨-, himpossible⟩
  · exact hne (Option.some.inj (hcurrent.symm.trans hpending))
  · exact not_connected_of_pending hpending himpossible

/-- A change of a connection leaves those that the other node has opened. -/
theorem attempt_before {dialer foreign : Side} {reached phase : Phase} {other : ℕ}
    (hself : later.get? connection = some ⟨dialer, reached⟩)
    (hothers : ∀ other, other ≠ connection → later.get? other = attempts.get? other)
    (hdialer : dialer ≠ foreign) (hother : later.get? other = some ⟨foreign, phase⟩) :
    attempts.get? other = some ⟨foreign, phase⟩ := by
  by_cases hsame : other = connection
  · rw [hsame, hself] at hother
    exact absurd (congrArg Attempt.dialer (Option.some.inj hother)) hdialer
  · rwa [hothers other hsame] at hother

/-- The refusing node opens a connection. -/
theorem Agrees.offering_opens (hagrees : Agrees side offering replacing attempts)
    (hnone : offering.endpoint = none) (hpending : after.pendingConnection = some connection)
    (hnew : attempts.get? connection = none) :
    Agrees side after replacing (attempts.set connection ⟨side, .requesting⟩) := by
  have hset : ∀ other attempt, (attempts.set connection ⟨side, .requesting⟩).get? other =
      some attempt → other = connection ∧ attempt = ⟨side, .requesting⟩ ∨
        attempts.get? other = some attempt := by
    intro other attempt hother
    rcases OrderedMap.get?_set_eq_some_iff.mp hother with ⟨hsame, hopened⟩ | ⟨-, hbefore⟩
    · exact .inl ⟨hsame, hopened.symm⟩
    · exact .inr hbefore
  have hunconnected : ∀ other, offering.endpoint ≠ some (.connected other) := by
    rw [hnone]
    exact fun _ himpossible ↦ nomatch himpossible
  constructor
  · intro other phase hother
    rcases hset other _ hother with ⟨rfl, hphase⟩ | hbefore
    · cases hphase
      exact .inl ⟨.inl rfl, hpending⟩
    · exact absurd hnone (hagrees.own_endpoint hbefore)
  · intro other phase hother
    rcases hset other _ hother with ⟨-, hphase⟩ | hbefore
    · cases hphase
      exact .inl rfl
    · exact absurd hnone (hagrees.own_endpoint hbefore)
  · intro other hother
    rcases hset other _ hother with ⟨-, hphase⟩ | hbefore
    · exact absurd (congrArg Attempt.dialer hphase) side.other_ne
    · exact absurd (hagrees.accepted other hbefore).1 (hunconnected other)
  · intro other hother
    rcases hset other _ hother with ⟨-, hphase⟩ | hbefore
    · exact absurd (congrArg Attempt.dialer hphase) side.other_ne
    · exact absurd (hagrees.established other hbefore).1 (hunconnected other)
  · exact fun other hother ↦ absurd hother (not_connected_of_pending hpending)
  · exact fun other hother ↦ absurd hnone (hagrees.offering_of_replacing ⟨other, hother⟩)

/-- Only what the nodes wait for and what they are connected over matters. -/
theorem Agrees.congr {offering' replacing' : ConnectionManager}
    (hagrees : Agrees side offering replacing attempts)
    (hpending : offering'.pendingConnection = offering.pendingConnection)
    (hconnected : ∀ managed, offering'.endpoint = some (.connected managed) ↔
      offering.endpoint = some (.connected managed))
    (hpending' : replacing'.pendingConnection = replacing.pendingConnection)
    (hconnected' : ∀ managed, replacing'.endpoint = some (.connected managed) ↔
      replacing.endpoint = some (.connected managed)) :
    Agrees side offering' replacing' attempts := by
  constructor
  · intro other phase hother
    rw [hpending, hconnected]
    exact hagrees.own other phase hother
  · intro other phase hother
    rw [hconnected']
    exact hagrees.taken other phase hother
  · intro other hother
    rw [hconnected, hpending']
    exact hagrees.accepted other hother
  · intro other hother
    rw [hconnected, hconnected']
    exact hagrees.established other hother
  · exact fun other hother ↦ hagrees.offers other ((hconnected other).mp hother)
  · exact fun other hother ↦ hagrees.replaces other ((hconnected' other).mp hother)

/-- The replacing node opens a connection. -/
theorem Agrees.replacing_opens (hagrees : Agrees side offering replacing attempts)
    (hnone : replacing.endpoint = none) (hpending : after.pendingConnection = some connection)
    (hnew : attempts.get? connection = none) :
    Agrees side offering after (attempts.set connection ⟨side.other, .requesting⟩) := by
  have hset : ∀ other attempt, (attempts.set connection ⟨side.other, .requesting⟩).get? other =
      some attempt → other = connection ∧ attempt = ⟨side.other, .requesting⟩ ∨
        attempts.get? other = some attempt := by
    intro other attempt hother
    rcases OrderedMap.get?_set_eq_some_iff.mp hother with ⟨hsame, hopened⟩ | ⟨-, hbefore⟩
    · exact .inl ⟨hsame, hopened.symm⟩
    · exact .inr hbefore
  have hkept : ∀ other attempt, attempts.get? other = some attempt →
      (attempts.set connection ⟨side.other, .requesting⟩).get? other = some attempt := by
    intro other attempt hother
    have hne : other ≠ connection := by
      rintro rfl
      rw [hnew] at hother
      cases hother
    rwa [OrderedMap.get?_set_of_ne _ _ hne]
  have hown : ∀ other phase, (attempts.set connection ⟨side.other, .requesting⟩).get? other =
      some ⟨side, phase⟩ → attempts.get? other = some ⟨side, phase⟩ := by
    intro other phase hother
    refine (hset other _ hother).resolve_left fun himpossible ↦ ?_
    exact side.ne_other (congrArg Attempt.dialer himpossible.2)
  have hunpending := pendingConnection_of_none hnone
  have hunconnected : ∀ other, replacing.endpoint ≠ some (.connected other) := by
    rw [hnone]
    exact fun _ himpossible ↦ nomatch himpossible
  constructor
  · exact fun other phase hother ↦ hagrees.own other phase (hown other phase hother)
  · intro other phase hother
    exact .inl ((hagrees.taken other phase (hown other phase hother)).resolve_right
      (hunconnected other))
  · intro other hother
    rcases hset other _ hother with ⟨-, hphase⟩ | hbefore
    · cases hphase
    · have hcurrent := (hagrees.accepted other hbefore).2
      rw [hunpending] at hcurrent
      cases hcurrent
  · intro other hother
    rcases hset other _ hother with ⟨-, hphase⟩ | hbefore
    · cases hphase
    · exact absurd (hagrees.established other hbefore).2 (hunconnected other)
  · intro other hother
    exact (hagrees.offers other hother).imp (hkept other _) (Or.imp (hkept other _) (hkept other _))
  · exact fun other hother ↦ absurd hother (not_connected_of_pending hpending)

/-- Assumes: a connection of the refusing node, whose request the other one has taken. -/
theorem Agrees.replacing_takes (hagrees : Agrees side offering replacing attempts)
    (hattempt : attempts.get? connection = some ⟨side, .requesting⟩)
    (hconnected : after.endpoint = some (.connected connection))
    (hself : later.get? connection = some ⟨side, .accepted⟩)
    (hothers : ∀ other, other ≠ connection → later.get? other = attempts.get? other) :
    Agrees side offering after later := by
  have hpending := hagrees.pending_of_own hattempt nofun
  have hunconnected : ∀ other, offering.endpoint ≠ some (.connected other) :=
    fun other ↦ not_connected_of_pending hpending
  have hback (other : ℕ) (phase : Phase) (hother : later.get? other = some ⟨side.other, phase⟩) :=
    attempt_before hself hothers side.ne_other hother
  constructor
  · intro other phase hother
    have hsame := hagrees.own_unique hpending hothers hother
    rw [hsame, hself] at hother
    cases hother
    exact .inl ⟨.inr rfl, hsame ▸ hpending⟩
  · intro other phase hother
    exact .inr (hagrees.own_unique hpending hothers hother ▸ hconnected)
  · exact fun other hother ↦
      absurd (hagrees.accepted other (hback other _ hother)).1 (hunconnected other)
  · exact fun other hother ↦
      absurd (hagrees.established other (hback other _ hother)).1 (hunconnected other)
  · exact fun other hother ↦ absurd hother (hunconnected other)
  · intro other hother
    rw [hconnected] at hother
    cases hother
    exact .inr (.inl hself)

/-- Assumes: a connection of the replacing node, whose request the other one has taken because it
had no endpoint. -/
theorem Agrees.offering_takes (hagrees : Agrees side offering replacing attempts)
    (hnone : offering.endpoint = none)
    (hconnected : after.endpoint = some (.connected connection))
    (hpending : replacing.pendingConnection = some connection)
    (hself : later.get? connection = some ⟨side.other, .accepted⟩)
    (hothers : ∀ other, other ≠ connection → later.get? other = attempts.get? other) :
    Agrees side after replacing later := by
  have hunconnected : ∀ other, offering.endpoint ≠ some (.connected other) := by
    rw [hnone]
    exact fun _ himpossible ↦ nomatch himpossible
  have hown : ∀ other phase, later.get? other ≠ some ⟨side, phase⟩ := by
    intro other phase hother
    exact hagrees.own_endpoint (attempt_before hself hothers side.other_ne hother) hnone
  constructor
  · exact fun other phase hother ↦ absurd hother (hown other phase)
  · exact fun other phase hother ↦ absurd hother (hown other phase)
  · intro other hother
    by_cases hsame : other = connection
    · rw [hsame]
      exact ⟨hconnected, hpending⟩
    · rw [hothers other hsame] at hother
      exact absurd (hagrees.accepted other hother).1 (hunconnected other)
  · intro other hother
    have hne : other ≠ connection := by
      rintro rfl
      rw [hself] at hother
      cases hother
    rw [hothers other hne] at hother
    exact absurd (hagrees.established other hother).1 (hunconnected other)
  · intro other hother
    rw [hconnected] at hother
    cases hother
    exact .inr (.inl hself)
  · exact fun other hother ↦ absurd hother (not_connected_of_pending hpending)

/-- Assumes: a connection of the refusing node that the other one has accepted. The response
connects it. -/
theorem Agrees.offering_connects (hagrees : Agrees side offering replacing attempts)
    (hattempt : attempts.get? connection = some ⟨side, .accepted⟩)
    (hconnected : after.endpoint = some (.connected connection))
    (hself : later.get? connection = some ⟨side, .established⟩)
    (hothers : ∀ other, other ≠ connection → later.get? other = attempts.get? other) :
    Agrees side after replacing later := by
  have hpending := hagrees.pending_of_own hattempt nofun
  have hunconnected : ∀ other, offering.endpoint ≠ some (.connected other) :=
    fun other ↦ not_connected_of_pending hpending
  have htaken := (hagrees.taken connection _ hattempt).resolve_left fun himpossible ↦
    nomatch himpossible
  have hback (other : ℕ) (phase : Phase) (hother : later.get? other = some ⟨side.other, phase⟩) :=
    attempt_before hself hothers side.ne_other hother
  constructor
  · intro other phase hother
    have hsame := hagrees.own_unique hpending hothers hother
    rw [hsame, hself] at hother
    cases hother
    exact .inr ⟨rfl, hsame ▸ hconnected⟩
  · intro other phase hother
    exact .inr (hagrees.own_unique hpending hothers hother ▸ htaken)
  · exact fun other hother ↦
      absurd (hagrees.accepted other (hback other _ hother)).1 (hunconnected other)
  · exact fun other hother ↦
      absurd (hagrees.established other (hback other _ hother)).1 (hunconnected other)
  · intro other hother
    rw [hconnected] at hother
    cases hother
    exact .inl hself
  · intro other hother
    rw [htaken] at hother
    cases hother
    exact .inr (.inr hself)

/-- Assumes: a connection of the replacing node that the other one has accepted. The response
connects it. -/
theorem Agrees.replacing_connects (hagrees : Agrees side offering replacing attempts)
    (hattempt : attempts.get? connection = some ⟨side.other, .accepted⟩)
    (hconnected : after.endpoint = some (.connected connection))
    (hself : later.get? connection = some ⟨side.other, .established⟩)
    (hothers : ∀ other, other ≠ connection → later.get? other = attempts.get? other) :
    Agrees side offering after later := by
  obtain ⟨hoffering, hpending⟩ := hagrees.accepted connection hattempt
  have hunconnected : ∀ other, replacing.endpoint ≠ some (.connected other) :=
    fun other ↦ not_connected_of_pending hpending
  have hown (other : ℕ) (phase : Phase) (hother : later.get? other = some ⟨side, phase⟩) :=
    attempt_before hself hothers side.other_ne hother
  have hsame : ∀ other, offering.endpoint = some (.connected other) → other = connection := by
    intro other hother
    rw [hoffering] at hother
    cases hother
    rfl
  constructor
  · exact fun other phase hother ↦ hagrees.own other phase (hown other phase hother)
  · exact fun other phase hother ↦ .inl
      ((hagrees.taken other phase (hown other phase hother)).resolve_right (hunconnected other))
  · intro other hother
    have hne : other ≠ connection := by
      rintro rfl
      rw [hself] at hother
      cases hother
    rw [hothers other hne] at hother
    exact absurd (hsame other (hagrees.accepted other hother).1) hne
  · intro other hother
    by_cases hequal : other = connection
    · rw [hequal]
      exact ⟨hoffering, hconnected⟩
    · rw [hothers other hequal] at hother
      exact absurd (hsame other (hagrees.established other hother).1) hequal
  · exact fun other hother ↦ .inr (.inr (hsame other hother ▸ hself))
  · intro other hother
    rw [hconnected] at hother
    cases hother
    exact .inl hself

/-- Assumes: a connection of the replacing node that is not accepted, before and after. What the
nodes are connected over does not change, and the replacing node waits for no other connection. -/
theorem Agrees.refused {old new : Phase} (hagrees : Agrees side offering replacing attempts)
    (hattempt : attempts.get? connection = some ⟨side.other, old⟩)
    (hold : old.pendingOrGone = true) (hnew : new.pendingOrGone = true)
    (hpending : ∀ other, other ≠ connection → replacing.pendingConnection = some other →
      after.pendingConnection = some other)
    (hconnected : ∀ managed, after.endpoint = some (.connected managed) ↔
      replacing.endpoint = some (.connected managed))
    (hself : later.get? connection = some ⟨side.other, new⟩)
    (hothers : ∀ other, other ≠ connection → later.get? other = attempts.get? other) :
    Agrees side offering after later := by
  have hback : ∀ other attempt, later.get? other = some attempt →
      (attempt.dialer = side ∨ attempt.phase = .accepted ∨ attempt.phase = .established) →
        other ≠ connection ∧ attempts.get? other = some attempt := by
    intro other attempt hother hkind
    have hne : other ≠ connection := by
      rintro rfl
      rw [hself] at hother
      cases hother
      rcases hkind with hdialer | haccepted | hestablished
      · exact side.other_ne hdialer
      · change new = .accepted at haccepted
        rw [haccepted] at hnew
        cases hnew
      · change new = .established at hestablished
        rw [hestablished] at hnew
        cases hnew
    exact ⟨hne, (hothers other hne) ▸ hother⟩
  have hforth : ∀ other attempt, attempts.get? other = some attempt →
      (attempt.dialer = side ∨ attempt.phase = .accepted ∨ attempt.phase = .established) →
        later.get? other = some attempt := by
    intro other attempt hother hkind
    have hne : other ≠ connection := by
      rintro rfl
      rw [hattempt] at hother
      cases hother
      rcases hkind with hdialer | haccepted | hestablished
      · exact side.other_ne hdialer
      · change old = .accepted at haccepted
        rw [haccepted] at hold
        cases hold
      · change old = .established at hestablished
        rw [hestablished] at hold
        cases hold
    exact (hothers other hne).trans hother
  constructor
  · exact fun other phase hother ↦ hagrees.own other phase (hback other _ hother (.inl rfl)).2
  · intro other phase hother
    rw [hconnected]
    exact hagrees.taken other phase (hback other _ hother (.inl rfl)).2
  · intro other hother
    obtain ⟨hne, hbefore⟩ := hback other _ hother (.inr (.inl rfl))
    exact (hagrees.accepted other hbefore).imp_right (hpending other hne)
  · intro other hother
    rw [hconnected]
    exact hagrees.established other (hback other _ hother (.inr (.inr rfl))).2
  · intro other hother
    exact (hagrees.offers other hother).imp (fun h ↦ hforth other _ h (.inl rfl))
      (Or.imp (fun h ↦ hforth other _ h (.inr (.inl rfl)))
        fun h ↦ hforth other _ h (.inr (.inr rfl)))
  · intro other hother
    exact (hagrees.replaces other ((hconnected other).mp hother)).imp
      (fun h ↦ hforth other _ h (.inr (.inr rfl)))
      (Or.imp (fun h ↦ hforth other _ h (.inl rfl)) fun h ↦ hforth other _ h (.inl rfl))

end Agreement

section Steps

variable {offerer : Side → Offerer} {state after : Crossing} {side : Side} {connection : ℕ}

/-- The invariant of two nodes, of which the one on `side` refuses. -/
structure Invariant (side : Side) (state : Crossing) : Prop where
  offering : NodeFits side (state.nodes side) state.attempts
  replacing : NodeFits side.other (state.nodes side.other) state.attempts
  agrees : Agrees side (state.nodes side) (state.nodes side.other) state.attempts

/-- A property of the two nodes, one of which has changed. -/
theorem Invariant.of_offering {node : ConnectionManager} {attempts : OrderedMap ℕ Attempt}
    (hoffering : NodeFits side node attempts)
    (hreplacing : NodeFits side.other (state.nodes side.other) attempts)
    (hagrees : Agrees side node (state.nodes side.other) attempts) :
    Invariant side ⟨Function.update state.nodes side node, attempts⟩ := by
  constructor
  · simpa only [Function.update_self] using hoffering
  · simpa only [Function.update_of_ne side.other_ne] using hreplacing
  · simpa only [Function.update_self, Function.update_of_ne side.other_ne] using hagrees

theorem Invariant.of_replacing {node : ConnectionManager} {attempts : OrderedMap ℕ Attempt}
    (hoffering : NodeFits side (state.nodes side) attempts)
    (hreplacing : NodeFits side.other node attempts)
    (hagrees : Agrees side (state.nodes side) node attempts) :
    Invariant side ⟨Function.update state.nodes side.other node, attempts⟩ := by
  constructor
  · simpa only [Function.update_of_ne side.ne_other] using hoffering
  · simpa only [Function.update_self] using hreplacing
  · simpa only [Function.update_self, Function.update_of_ne side.ne_other] using hagrees

theorem perform_eq {event : ConnectionManager.Event} {node : ConnectionManager}
    (hnext : (state.nodes side).next (offerer side) event = some node) :
    state.perform offerer side event = node := by
  rw [perform, hnext, Option.getD_some]

/-! #### Sending -/

/-- Assumes: the invariant of a node without an endpoint. It opens a connection. -/
theorem NodeFits.opens (offer : Offerer) (buffering : Bool) {node : ConnectionManager}
    {attempts : OrderedMap ℕ Attempt}
    (hfits : NodeFits side node attempts) (hnone : node.endpoint = none)
    (hnew : attempts.get? connection = none) :
    ∃ current, node.next offer (.send true buffering .outgoing connection) = some current ∧
      current.connecting = some connection ∧ current.pendingConnection = some connection ∧
      NodeFits side current (attempts.set connection ⟨side, .requesting⟩) := by
  have hpending := pendingConnection_of_none hnone
  have hidle : ∀ other phase, attempts.get? other = some ⟨side, phase⟩ →
      phase.inFlight = false := by
    intro other phase hother
    by_contra hflight
    rcases hfits.waiting other phase hother (Bool.eq_true_of_not_eq_false hflight) with
      hcurrent | ⟨managed, hmanaged⟩
    · rw [hpending] at hcurrent
      cases hcurrent
    · rw [hnone] at hmanaged
      cases hmanaged
  have hentry : node.connecting = none := by
    cases hsome : node.connecting with
    | none => rfl
    | some existing =>
      obtain ⟨phase, hattempt, hflight⟩ := hfits.entry existing hsome
      rw [hidle existing phase hattempt] at hflight
      cases hflight
  obtain ⟨hunseen, hunmanaged⟩ := hfits.unseen connection (.inl hnew)
  obtain ⟨current, hnext, hinvariant, helsewhere, hcurrent, hconnecting, hmanaged, hhandshaking⟩ :=
    hfits.invariant.send_opens offer buffering hnone hentry hunseen
  refine ⟨current, hnext, hconnecting, hcurrent, hinvariant, ?_, ?_, ?_, ?_, ?_⟩
  · intro other hother
    rw [hconnecting] at hother
    cases hother
    exact ⟨.requesting, OrderedMap.get?_set_self _ _ _, rfl⟩
  · intro other hother
    rw [hcurrent] at hother
    cases hother
    exact ⟨.requesting, OrderedMap.get?_set_self _ _ _, rfl⟩
  · intro other phase hother hflight
    by_cases hsame : other = connection
    · rw [hsame]
      exact ⟨hhandshaking, hmanaged.trans hunmanaged⟩
    · rw [OrderedMap.get?_set_of_ne _ _ hsame] at hother
      rw [hidle other phase hother] at hflight
      cases hflight
  · intro other phase hother hflight
    by_cases hsame : other = connection
    · exact .inl (hsame ▸ hcurrent)
    · rw [OrderedMap.get?_set_of_ne _ _ hsame] at hother
      rw [hidle other phase hother] at hflight
      cases hflight
  · intro other hother
    by_cases hsame : other = connection
    · rw [hsame, OrderedMap.get?_set_self] at hother
      rcases hother with himpossible | hrequesting
      · cases himpossible
      · have hdialer := congrArg (fun attempt ↦ attempt.map Attempt.dialer) hrequesting
        exact absurd (Option.some.inj hdialer) side.ne_other
    · rw [OrderedMap.get?_set_of_ne _ _ hsame] at hother
      obtain ⟨hpendings, hmanageds⟩ := hfits.unseen other hother
      exact ⟨(helsewhere.has other hsame).trans hpendings,
        (helsewhere.managed other hsame).trans hmanageds⟩

/-- The other node opens a connection, of which this one sees nothing yet. -/
theorem NodeFits.opened_by_other {node : ConnectionManager} {attempts : OrderedMap ℕ Attempt}
    {dialer : Side} (hfits : NodeFits side node attempts) (hdialer : dialer ≠ side)
    (hnew : attempts.get? connection = none) :
    NodeFits side node (attempts.set connection ⟨dialer, .requesting⟩) := by
  have hsome : ∀ other phase, attempts.get? other = some ⟨side, phase⟩ → other ≠ connection := by
    rintro other phase hother rfl
    rw [hnew] at hother
    cases hother
  have hback : ∀ other phase, (attempts.set connection ⟨dialer, .requesting⟩).get? other =
      some ⟨side, phase⟩ → attempts.get? other = some ⟨side, phase⟩ := by
    intro other phase hother
    by_cases hsame : other = connection
    · rw [hsame, OrderedMap.get?_set_self] at hother
      cases hother
      exact absurd rfl hdialer
    · rwa [OrderedMap.get?_set_of_ne _ _ hsame] at hother
  constructor
  · exact hfits.invariant
  · intro other hother
    obtain ⟨phase, hattempt, hflight⟩ := hfits.entry other hother
    exact ⟨phase, (OrderedMap.get?_set_of_ne _ _ (hsome other phase hattempt)).trans hattempt,
      hflight⟩
  · intro other hother
    obtain ⟨phase, hattempt, hflight⟩ := hfits.current other hother
    exact ⟨phase, (OrderedMap.get?_set_of_ne _ _ (hsome other phase hattempt)).trans hattempt,
      hflight⟩
  · exact fun other phase hother ↦ hfits.handshaking other phase (hback other phase hother)
  · exact fun other phase hother ↦ hfits.waiting other phase (hback other phase hother)
  · intro other hother
    by_cases hsame : other = connection
    · exact hfits.unseen other (.inl (hsame ▸ hnew))
    · rw [OrderedMap.get?_set_of_ne _ _ hsame] at hother
      exact hfits.unseen other hother

/-- A node that sends to its endpoint is as before. -/
theorem NodeFits.sendOrBuffer {node : ConnectionManager} {attempts : OrderedMap ℕ Attempt}
    (hfits : NodeFits side node attempts) (buffering : Bool)
    (hinvariant : ConnectionManager.Invariant (node.sendOrBuffer buffering)) :
    NodeFits side (node.sendOrBuffer buffering) attempts := by
  obtain ⟨hpendings, hmanaged, hentry, hpending, hconnected⟩ :=
    ConnectionManager.sendOrBuffer_same buffering node
  refine ⟨hinvariant, ?_, ?_, ?_, fun other phase hother hflight ↦ ?_, ?_⟩
  · rw [hentry]
    exact hfits.entry
  · rw [hpending]
    exact hfits.current
  · rw [hpendings, hmanaged]
    exact hfits.handshaking
  · rw [hpending]
    refine (hfits.waiting other phase hother hflight).imp_right ?_
    exact fun ⟨managed, hnode⟩ ↦ ⟨managed, (hconnected managed).mpr hnode⟩
  · rw [hpendings, hmanaged]
    exact hfits.unseen

/-- Assumes: the invariant. Sending keeps it. -/
theorem Invariant.send {buffering : Bool} {sender : Side} (hinvariant : Invariant side state)
    (hnext : state.send offerer sender buffering connection = some after) :
    Invariant side after := by
  unfold Crossing.send at hnext
  split_ifs at hnext with hhas
  have hnew : state.attempts.get? connection = none :=
    Option.not_isSome_iff_eq_none.mp hhas
  have hfits : NodeFits sender (state.nodes sender) state.attempts := by
    rcases sender.eq_or_eq_other side with rfl | rfl
    · exact hinvariant.offering
    · exact hinvariant.replacing
  by_cases hnone : (state.nodes sender).endpoint = none
  · obtain ⟨node, hnode, hconnecting, hpending, hopened⟩ :=
      hfits.opens (offerer sender) buffering hnone hnew
    simp only [perform_eq hnode, hconnecting, if_true, Option.some.injEq] at hnext
    subst hnext
    rcases sender.eq_or_eq_other side with rfl | rfl
    · exact .of_offering hopened (hinvariant.replacing.opened_by_other sender.ne_other hnew)
        (hinvariant.agrees.offering_opens hnone hpending hnew)
    · exact .of_replacing (hinvariant.offering.opened_by_other side.other_ne hnew) hopened
        (hinvariant.agrees.replacing_opens hnone hpending hnew)
  · have hnode := ConnectionManager.send_same (offerer sender) hnone buffering connection
    have hkeeps : (state.nodes sender).keepsBuffer
        (.send true buffering .outgoing connection) = true := by
      have hsome := Option.isSome_iff_ne_none.mpr hnone
      simp [ConnectionManager.keepsBuffer, hsome]
    have hsent := hfits.sendOrBuffer buffering ((hfits.invariant.next hnode).2 hkeeps)
    obtain ⟨-, -, hentry, hpending, hconnected⟩ :=
      ConnectionManager.sendOrBuffer_same buffering (state.nodes sender)
    have hunopened : ((state.nodes sender).sendOrBuffer buffering).connecting ≠
        some connection := by
      rw [hentry]
      intro hconnecting
      obtain ⟨phase, hattempt, -⟩ := hfits.entry connection hconnecting
      rw [hnew] at hattempt
      cases hattempt
    simp only [perform_eq hnode, hunopened, if_false, Option.some.injEq] at hnext
    subst hnext
    rcases sender.eq_or_eq_other side with rfl | rfl
    · exact .of_offering hsent hinvariant.replacing
        (hinvariant.agrees.congr hpending hconnected rfl fun _ ↦ Iff.rfl)
    · exact .of_replacing hinvariant.offering hsent
        (hinvariant.agrees.congr rfl (fun _ ↦ Iff.rfl) hpending hconnected)

/-! #### Arrivals -/

theorem get?_move (state : Crossing) (node : ConnectionManager) (phase : Phase) (mover : Side)
    {attempt : Attempt} (hattempt : state.attempts.get? connection = some attempt) :
    (state.move mover node connection phase).attempts.get? connection =
        some ⟨attempt.dialer, phase⟩ ∧
      ∀ other, other ≠ connection →
        (state.move mover node connection phase).attempts.get? other = state.attempts.get? other := by
  refine ⟨?_, fun other hother ↦ OrderedMap.get?_adjust_of_ne _ _ hother⟩
  exact (OrderedMap.get?_adjust_self _ _ _).trans (by rw [hattempt]; rfl)

/-- Assumes: a request of the other node that has arrived and was taken. -/
theorem NodeFits.takes {node : ConnectionManager} {attempts : OrderedMap ℕ Attempt}
    (hfits : NodeFits side node attempts) (offer : Offerer) (later : OrderedMap ℕ Attempt)
    (hattempt : attempts.get? connection = some ⟨side.other, .requesting⟩) :
    ∃ current, node.next offer (.handshakeRequest connection connection) = some current ∧
      (node.endpoint = none ∨ offer = .remoteNode →
        current.endpoint = some (.connected connection)) ∧
      (node.endpoint ≠ none → offer = .localNode → current.endpoint = node.endpoint) ∧
      ∀ phase, phase ≠ .requesting → later.get? connection = some ⟨side.other, phase⟩ →
        (∀ other, other ≠ connection → later.get? other = attempts.get? other) →
          NodeFits side current later := by
  obtain ⟨hunseen, hunmanaged⟩ := hfits.unseen connection (.inr hattempt)
  obtain ⟨current, hnext, hinvariant, helsewhere, hentry, htakes, hrefuses⟩ :=
    hfits.invariant.takes_request offer hunseen hunmanaged hfits.requestOngoing
  refine ⟨current, hnext, htakes, hrefuses, fun phase hphase hself hothers ↦ ?_⟩
  have hnotown : node.pendingConnection ≠ some connection := by
    intro hcurrent
    rw [hfits.invariant.present connection (.inl hcurrent)] at hunseen
    cases hunseen
  have hcases : Connected current ∧ current.pendingConnection = none ∨
      current.endpoint = node.endpoint := by
    by_cases hwhy : node.endpoint = none ∨ offer = .remoteNode
    · have hconnected := htakes hwhy
      exact .inl ⟨⟨connection, hconnected⟩, pendingConnection_of_connected hconnected⟩
    · obtain ⟨hsome, hnotremote⟩ := not_or.mp hwhy
      have hlocal : offer = .localNode := by
        cases offer with
        | localNode => rfl
        | remoteNode => exact absurd rfl hnotremote
      exact .inr (hrefuses hsome hlocal)
  refine hfits.event hinvariant helsewhere hentry hothers ⟨?_, ?_⟩ ?_ ?_ ?_
  · rw [hself]
    exact fun himpossible ↦ nomatch himpossible
  · rw [hself]
    intro himpossible
    cases himpossible
    exact hphase rfl
  · intro own hown
    rw [hself] at hown
    exact absurd (congrArg Attempt.dialer (Option.some.inj hown)) side.other_ne
  · intro other hcurrent
    rcases hcases with ⟨-, hnone⟩ | hsame
    · rw [hnone] at hcurrent
      cases hcurrent
    · have hbefore : node.pendingConnection = some other := by
        unfold ConnectionManager.pendingConnection at hcurrent ⊢
        rwa [← hsame]
      refine ⟨?_, hbefore⟩
      rintro rfl
      exact hnotown hbefore
  · intro other _ hwaits
    rcases hcases with ⟨hconnected, -⟩ | hsame
    · exact .inr hconnected
    · unfold Connected ConnectionManager.pendingConnection at hwaits ⊢
      rwa [hsame]

/-- Assumes: the invariant, and nodes of which the one on `side` refuses. -/
theorem Invariant.requestArrives (hinvariant : Invariant side state)
    (hlocal : offerer side = .localNode) (hremote : offerer side.other = .remoteNode)
    (hnext : state.requestArrives offerer connection = some after) : Invariant side after := by
  unfold Crossing.requestArrives at hnext
  split at hnext
  · rename_i dialer hattempt
    simp only [Option.some.injEq] at hnext
    subst hnext
    rcases dialer.eq_or_eq_other side with rfl | rfl
    · -- The connection is the refusing node's: the other one replaces what it has.
      have hget := fun node ↦ get?_move state node .accepted dialer.other hattempt
      have hrequesting : state.attempts.get? connection =
          some ⟨dialer.other.other, .requesting⟩ := by
        rw [Side.other_other]
        exact hattempt
      obtain ⟨node, hnode, htakes, -, hfits⟩ :=
        hinvariant.replacing.takes (offerer dialer.other) (state.attempts.adjust connection
          fun attempt ↦ { attempt with phase := .accepted }) hrequesting
      have hconnected := htakes (.inr hremote)
      obtain ⟨hself, hothers⟩ := hget node
      rw [perform_eq hnode, if_pos hconnected]
      refine .of_replacing ?_ (hfits .accepted (by decide) ?_ hothers) ?_
      · exact hinvariant.offering.setPhase hattempt (fun _ ↦ ⟨rfl, rfl⟩) (by decide)
      · rw [Side.other_other]
        exact hself
      · exact hinvariant.agrees.replacing_takes hattempt hconnected hself hothers
    · -- The connection is the replacing node's: the refusing one takes it if it has nothing.
      rw [Side.other_other]
      by_cases hnone : (state.nodes side).endpoint = none
      · obtain ⟨node, hnode, htakes, -, hfits⟩ :=
          hinvariant.offering.takes (offerer side) (state.attempts.adjust connection
            fun attempt ↦ { attempt with phase := .accepted }) hattempt
        have hconnected := htakes (.inl hnone)
        obtain ⟨hself, hothers⟩ := get?_move state node .accepted side hattempt
        have hpending : (state.nodes side.other).pendingConnection = some connection :=
          (hinvariant.replacing.waiting connection _ hattempt rfl).resolve_right fun hother ↦
            hinvariant.agrees.offering_of_replacing hother hnone
        rw [perform_eq hnode, if_pos hconnected]
        exact .of_offering (hfits .accepted (by decide) hself hothers)
          (hinvariant.replacing.setPhase hattempt (fun _ ↦ ⟨rfl, rfl⟩) (by decide))
          (hinvariant.agrees.offering_takes hnone hconnected hpending hself hothers)
      · obtain ⟨node, hnode, -, hrefuses, hfits⟩ :=
          hinvariant.offering.takes (offerer side) (state.attempts.adjust connection
            fun attempt ↦ { attempt with phase := .refused }) hattempt
        have hsame := hrefuses hnone hlocal
        obtain ⟨hself, hothers⟩ := get?_move state node .refused side hattempt
        have hunconnected : node.endpoint ≠ some (.connected connection) := by
          rw [hsame]
          intro hconnected
          rcases hinvariant.agrees.offers connection hconnected with hown | hother | hother
          · exact side.other_ne
              (congrArg Attempt.dialer (Option.some.inj (hattempt.symm.trans hown)))
          · have hphase := congrArg Attempt.phase (Option.some.inj (hattempt.symm.trans hother))
            cases hphase
          · have hphase := congrArg Attempt.phase (Option.some.inj (hattempt.symm.trans hother))
            cases hphase
        rw [perform_eq hnode, if_neg hunconnected]
        have hagrees : Agrees side (state.nodes side) (state.nodes side.other)
            (state.move side node connection .refused).attempts :=
          hinvariant.agrees.refused hattempt rfl rfl (fun _ _ h ↦ h) (fun _ ↦ Iff.rfl) hself
            hothers
        refine .of_offering (hfits .refused (by decide) hself hothers)
          (hinvariant.replacing.setPhase hattempt (fun _ ↦ ⟨rfl, rfl⟩) (by decide))
          (hagrees.congr ?_ (fun _ ↦ by rw [hsame]) rfl fun _ ↦ Iff.rfl)
        unfold ConnectionManager.pendingConnection
        rw [hsame]
  · cases hnext

/-- Assumes: a connection of the node that the other one has accepted, and for which it waits. -/
theorem NodeFits.connects {node : ConnectionManager} {attempts later : OrderedMap ℕ Attempt}
    (hfits : NodeFits side node attempts) (offer : Offerer)
    (hattempt : attempts.get? connection = some ⟨side, .accepted⟩)
    (hpending : node.pendingConnection = some connection)
    (hself : later.get? connection = some ⟨side, .established⟩)
    (hothers : ∀ other, other ≠ connection → later.get? other = attempts.get? other) :
    ∃ current, node.next offer (.handshakeCompleted connection connection) = some current ∧
      current.endpoint = some (.connected connection) ∧ NodeFits side current later := by
  obtain ⟨⟨pending, hfound, hwiring, hhandshaking⟩, hunmanaged⟩ :=
    hfits.handshaking connection _ hattempt rfl
  obtain ⟨current, hnext, hinvariant, helsewhere, hentry, hconnected⟩ :=
    hfits.invariant.takes_response offer hpending hfound hwiring hhandshaking
      hunmanaged
  refine ⟨current, hnext, hconnected,
    hfits.event hinvariant helsewhere hentry hothers ⟨?_, ?_⟩ ?_ ?_ ?_⟩
  · rw [hself]
    exact fun himpossible ↦ nomatch himpossible
  · rw [hself]
    exact fun himpossible ↦
      side.ne_other (congrArg Attempt.dialer (Option.some.inj himpossible))
  · intro phase hphase
    rw [hself] at hphase
    cases hphase
    rfl
  · intro other hcurrent
    rw [pendingConnection_of_connected hconnected] at hcurrent
    cases hcurrent
  · exact fun _ _ _ ↦ .inr ⟨connection, hconnected⟩

/-- Assumes: the invariant. -/
theorem Invariant.responseArrives (hinvariant : Invariant side state)
    (hnext : state.responseArrives offerer connection = some after) : Invariant side after := by
  unfold Crossing.responseArrives at hnext
  split at hnext
  · rename_i dialer hattempt
    simp only [Option.some.injEq] at hnext
    subst hnext
    have hget := fun node ↦ get?_move state node .established dialer hattempt
    rcases dialer.eq_or_eq_other side with rfl | rfl
    · have hpending : (state.nodes dialer).pendingConnection = some connection := by
        rcases hinvariant.agrees.own connection _ hattempt with ⟨-, hpending⟩ | ⟨himpossible, -⟩
        · exact hpending
        · cases himpossible
      obtain ⟨node, hnode, hconnected, hfits⟩ := hinvariant.offering.connects
        (offerer dialer) hattempt hpending (hget (state.nodes dialer)).1
        (hget (state.nodes dialer)).2
      rw [perform_eq hnode]
      exact .of_offering hfits
        (hinvariant.replacing.setPhase hattempt (fun h ↦ absurd h dialer.ne_other) (by decide))
        (hinvariant.agrees.offering_connects hattempt hconnected (hget node).1 (hget node).2)
    · obtain ⟨-, hpending⟩ := hinvariant.agrees.accepted connection hattempt
      obtain ⟨node, hnode, hconnected, hfits⟩ := hinvariant.replacing.connects
        (offerer side.other) hattempt hpending (hget (state.nodes side.other)).1
        (hget (state.nodes side.other)).2
      rw [perform_eq hnode]
      exact .of_replacing
        (hinvariant.offering.setPhase hattempt (fun h ↦ absurd h side.other_ne) (by decide)) hfits
        (hinvariant.agrees.replacing_connects hattempt hconnected (hget node).1 (hget node).2)
  · rename_i dialer hattempt
    simp only [Option.some.injEq] at hnext
    subst hnext
    obtain ⟨hself, hothers⟩ := get?_move state (state.nodes dialer) .closing dialer hattempt
    rcases dialer.eq_or_eq_other side with rfl | rfl
    · rcases hinvariant.agrees.own connection _ hattempt with ⟨himpossible, -⟩ | ⟨himpossible, -⟩
      · rcases himpossible with himpossible | himpossible <;> cases himpossible
      · cases himpossible
    · exact .of_replacing
        (hinvariant.offering.setPhase hattempt (fun h ↦ absurd h side.other_ne) (by decide))
        (hinvariant.replacing.setPhase hattempt (fun _ ↦ ⟨rfl, rfl⟩) (by decide))
        (hinvariant.agrees.refused hattempt rfl rfl (fun _ _ h ↦ h) (fun _ ↦ Iff.rfl) hself hothers)
  · cases hnext

/-- Assumes: a refused connection of the node. When it is closed, the node no longer waits for it
and is connected as before. -/
theorem NodeFits.closes {node : ConnectionManager} {attempts later : OrderedMap ℕ Attempt}
    {phase : Phase} (hfits : NodeFits side node attempts) (offer : Offerer)
    (hattempt : attempts.get? connection = some ⟨side, phase⟩) (hflight : phase.inFlight = true)
    (hself : later.get? connection = some ⟨side, .closed⟩)
    (hothers : ∀ other, other ≠ connection → later.get? other = attempts.get? other) :
    ∃ current, node.next offer (.socketDisconnected connection) = some current ∧
      (∀ other, other ≠ connection → node.pendingConnection = some other →
        current.pendingConnection = some other) ∧
      (∀ managed, current.endpoint = some (.connected managed) ↔
        node.endpoint = some (.connected managed)) ∧
      NodeFits side current later := by
  obtain ⟨⟨pending, hfound, hwiring, hhandshaking⟩, -⟩ :=
    hfits.handshaking connection phase hattempt hflight
  obtain ⟨current, hnext, hinvariant, helsewhere, hentry, hown, hforeign⟩ :=
    hfits.invariant.takes_closing offer hfound hwiring hhandshaking
  have hpending : ∀ other, other ≠ connection →
      (current.pendingConnection = some other ↔ node.pendingConnection = some other) := by
    intro other hother
    by_cases hcurrent : node.pendingConnection = some connection
    · rw [pendingConnection_of_none (hown hcurrent), hcurrent]
      exact ⟨fun himpossible ↦ (nomatch himpossible),
        fun hsame ↦ absurd (Option.some.inj hsame).symm hother⟩
    · unfold ConnectionManager.pendingConnection
      rw [hforeign hcurrent]
  have hconnected : ∀ managed, current.endpoint = some (.connected managed) ↔
      node.endpoint = some (.connected managed) := by
    intro managed
    by_cases hcurrent : node.pendingConnection = some connection
    · rw [hown hcurrent]
      exact ⟨fun himpossible ↦ (nomatch himpossible),
        fun hmanaged ↦ absurd hmanaged (not_connected_of_pending hcurrent)⟩
    · rw [hforeign hcurrent]
  refine ⟨current, hnext, fun other hother ↦ (hpending other hother).mpr, hconnected,
    hfits.event hinvariant helsewhere hentry hothers ⟨?_, ?_⟩ ?_ ?_ ?_⟩
  · rw [hself]
    exact fun himpossible ↦ nomatch himpossible
  · rw [hself]
    exact fun himpossible ↦
      side.ne_other (congrArg Attempt.dialer (Option.some.inj himpossible))
  · intro own hphase
    rw [hself] at hphase
    cases hphase
    rfl
  · intro other hcurrent
    have hne : other ≠ connection := by
      rintro rfl
      by_cases hbefore : node.pendingConnection = some other
      · rw [pendingConnection_of_none (hown hbefore)] at hcurrent
        cases hcurrent
      · unfold ConnectionManager.pendingConnection at hcurrent hbefore
        rw [hforeign hbefore] at hcurrent
        exact hbefore hcurrent
    exact ⟨hne, (hpending other hne).mp hcurrent⟩
  · intro other hother hwaits
    refine hwaits.imp (hpending other hother).mpr ?_
    exact fun ⟨managed, hmanaged⟩ ↦ ⟨managed, (hconnected managed).mpr hmanaged⟩

/-- Assumes: the invariant. -/
theorem Invariant.closingArrives (hinvariant : Invariant side state)
    (hnext : state.closingArrives offerer connection = some after) : Invariant side after := by
  unfold Crossing.closingArrives at hnext
  split at hnext
  · rename_i dialer phase hattempt
    split_ifs at hnext with hrefusing
    cases hnext
    have hflight : phase.inFlight = true := by
      cases phase <;> first | rfl | cases hrefusing
    have hgone : phase.pendingOrGone = true := by
      cases phase <;> first | rfl | cases hrefusing
    rcases dialer.eq_or_eq_other side with rfl | rfl
    · rcases hinvariant.agrees.own connection _ hattempt with ⟨hphase, -⟩ | ⟨hphase, -⟩
      · rcases hphase with hphase | hphase <;> rw [hphase] at hrefusing <;> cases hrefusing
      · rw [hphase] at hrefusing
        cases hrefusing
    · have hget := fun node ↦ get?_move state node .closed side.other hattempt
      obtain ⟨node, hnode, hpending, hconnected, hfits⟩ := hinvariant.replacing.closes
        (offerer side.other) hattempt hflight (hget (state.nodes side.other)).1
        (hget (state.nodes side.other)).2
      rw [perform_eq hnode]
      exact .of_replacing
        (hinvariant.offering.setPhase hattempt (fun h ↦ absurd h side.other_ne) (by decide)) hfits
        (hinvariant.agrees.refused hattempt hgone rfl hpending hconnected (hget node).1
          (hget node).2)
  · cases hnext

/-! #### Runs -/

theorem nodeFits_start (side : Side) : NodeFits side .start .empty where
  invariant := ConnectionManager.invariant_start
  entry := fun _ himpossible ↦ nomatch himpossible
  current := fun _ himpossible ↦ nomatch himpossible
  handshaking := fun _ _ himpossible ↦ nomatch himpossible
  waiting := fun _ _ himpossible ↦ nomatch himpossible
  unseen := fun _ _ ↦ ⟨rfl, rfl⟩

theorem invariant_start (side : Side) : Invariant side start where
  offering := nodeFits_start side
  replacing := nodeFits_start side.other
  agrees := {
    own := fun _ _ himpossible ↦ nomatch himpossible
    taken := fun _ _ himpossible ↦ nomatch himpossible
    accepted := fun _ himpossible ↦ nomatch himpossible
    established := fun _ himpossible ↦ nomatch himpossible
    offers := fun _ himpossible ↦ nomatch himpossible
    replaces := fun _ himpossible ↦ nomatch himpossible }

/-- Assumes: the invariant, and nodes of which the one on `side` refuses. Every step keeps it. -/
theorem Invariant.step {event : Event} (hinvariant : Invariant side state)
    (hlocal : offerer side = .localNode) (hremote : offerer side.other = .remoteNode)
    (hnext : state.step offerer event = some after) : Invariant side after := by
  cases event with
  | send sender buffering connection => exact hinvariant.send hnext
  | requestArrives connection => exact hinvariant.requestArrives hlocal hremote hnext
  | responseArrives connection => exact hinvariant.responseArrives hnext
  | closingArrives connection => exact hinvariant.closingArrives hnext

/-- Assumes: the invariant. With nothing in flight, both nodes are connected over the same
connection, or neither has an endpoint. -/
theorem Invariant.converged (hinvariant : Invariant side state) (hquiet : Quiescent state) :
    (∃ connection, ∀ node, (state.nodes node).endpoint = some (.connected connection)) ∨
      ∀ node, (state.nodes node).endpoint = none := by
  have hboth : ∀ property : ConnectionManager → Prop, property (state.nodes side) →
      property (state.nodes side.other) → ∀ node, property (state.nodes node) := by
    intro property hside hother node
    rcases node.eq_or_eq_other side with rfl | rfl
    · exact hside
    · exact hother
  have hunpending : ∀ node, (state.nodes node).pendingConnection = none := by
    have hsettled : ∀ {owner : Side} {connection : ℕ}, (∃ phase,
        state.attempts.get? connection = some ⟨owner, phase⟩ ∧ phase.inFlight = true) → False := by
      rintro owner connection ⟨phase, hattempt, hflight⟩
      rw [hquiet connection _ hattempt] at hflight
      cases hflight
    refine hboth (fun node ↦ node.pendingConnection = none) ?_ ?_
    · exact Option.eq_none_iff_forall_ne_some.mpr fun connection hcurrent ↦
        hsettled (hinvariant.offering.current connection hcurrent)
    · exact Option.eq_none_iff_forall_ne_some.mpr fun connection hcurrent ↦
        hsettled (hinvariant.replacing.current connection hcurrent)
  have hcases : ∀ node, (state.nodes node).endpoint = none ∨ Connected (state.nodes node) := by
    intro node
    rcases hendpoint : (state.nodes node).endpoint with _ | ⟨connection, output⟩ | connection
    · exact .inl rfl
    · have hpending := ConnectionManager.pendingConnection_of_connecting hendpoint
      rw [hunpending node] at hpending
      cases hpending
    · exact .inr ⟨connection, hendpoint⟩
  rcases hcases side with hnone | ⟨connection, hconnected⟩
  · right
    refine hboth (fun node ↦ node.endpoint = none) hnone
      ((hcases side.other).resolve_right fun hother ↦ ?_)
    exact hinvariant.agrees.offering_of_replacing hother hnone
  · refine .inl ⟨connection, hboth (fun node ↦
      node.endpoint = some (.connected connection)) hconnected ?_⟩
    rcases hinvariant.agrees.offers connection hconnected with hown | hother | hother
    · exact (hinvariant.agrees.taken connection _ hown).resolve_left fun himpossible ↦
        nomatch himpossible
    · have hsettled := hquiet connection _ hother
      cases hsettled
    · exact (hinvariant.agrees.established connection hother).2

end Steps

/-! ### The offering hashes -/

/-- The hash of a node's id and the other one's. -/
def offeringHash (computeMd5 : List Char → List UInt8) (nodeId : Side → DhtAddress) (side : Side) :
    ℤ :=
  getOfferingHash computeMd5 ((nodeId side).text ++ ',' :: (nodeId side.other).text)

/-- What `getOfferer` says on a node. -/
def offererOf (computeMd5 : List Char → List UInt8) (nodeId : Side → DhtAddress) (side : Side) :
    Offerer :=
  getOfferer computeMd5 (nodeId side) (nodeId side.other)

theorem offererOf_eq (computeMd5 : List Char → List UInt8) (nodeId : Side → DhtAddress)
    (side : Side) : offererOf computeMd5 nodeId side =
      if offeringHash computeMd5 nodeId side < offeringHash computeMd5 nodeId side.other then
        .localNode
      else .remoteNode := by
  rw [offererOf, getOfferer, offeringHash, offeringHash, Side.other_other]

/-- Assumes: two different hashes. One node offers, and the other one takes it for the offerer. -/
theorem exists_offering {computeMd5 : List Char → List UInt8} {nodeId : Side → DhtAddress}
    (hdiffer : offeringHash computeMd5 nodeId .first ≠ offeringHash computeMd5 nodeId .second) :
    ∃ side, offererOf computeMd5 nodeId side = .localNode ∧
      offererOf computeMd5 nodeId side.other = .remoteNode := by
  have hlesser : ∀ side : Side,
      offeringHash computeMd5 nodeId side < offeringHash computeMd5 nodeId side.other →
        offererOf computeMd5 nodeId side = .localNode ∧
          offererOf computeMd5 nodeId side.other = .remoteNode := by
    intro side hless
    rw [offererOf_eq, offererOf_eq, Side.other_other, if_pos hless, if_neg hless.le.not_gt]
    exact ⟨rfl, rfl⟩
  rcases lt_or_gt_of_ne hdiffer with hless | hless
  · exact ⟨.first, hlesser .first hless⟩
  · exact ⟨.second, hlesser .second hless⟩

/-- Assumes: two nodes with different offering hashes. When nothing is in flight, both are connected
over the same connection or neither has an endpoint, and never do both wait for a connection that
the other one has refused. -/
theorem crossing_converges {computeMd5 : List Char → List UInt8} {nodeId : Side → DhtAddress}
    (hdiffer : offeringHash computeMd5 nodeId .first ≠ offeringHash computeMd5 nodeId .second)
    {state : Crossing}
    (hreachable : Reachable (step (offererOf computeMd5 nodeId)) (fun _ _ ↦ True) (· = start)
      state) :
    (Quiescent state →
      (∃ connection, ∀ side, (state.nodes side).endpoint = some (.connected connection)) ∨
        ∀ side, (state.nodes side).endpoint = none) ∧
      ¬ ∀ side, WaitsForRefused state side := by
  obtain ⟨side, hlocal, hremote⟩ := exists_offering hdiffer
  have hinvariant : Invariant side state :=
    hreachable.invariant (fun _ hstart ↦ hstart ▸ invariant_start side)
      fun _ _ _ _ hbefore _ hnext ↦ hbefore.step hlocal hremote hnext
  refine ⟨hinvariant.converged, fun hall ↦ ?_⟩
  obtain ⟨connection, phase, hattempt, hrefusing, -⟩ := hall side
  rcases hinvariant.agrees.own connection phase hattempt with ⟨hphase | hphase, -⟩ | ⟨hphase, -⟩
  all_goals
    rw [hphase] at hrefusing
    cases hrefusing

/-- Two node ids, one of zeros and one of ones. -/
def sampleNodeId : Side → DhtAddress
  | .first => ⟨List.replicate 20 0, rfl⟩
  | .second => ⟨List.replicate 20 0x11, rfl⟩

/-- The MD5 hashes of the two texts of these ids. -/
def sampleMd5 (idPair : List Char) : List UInt8 :=
  if idPair.head? = some '0' then
    [51, 160, 224, 135, 106, 159, 101, 25, 92, 101, 171, 83, 5, 4, 226, 226]
  else [6, 47, 222, 119, 169, 195, 198, 11, 136, 230, 97, 185, 141, 232, 15, 169]

/-- A run in which both nodes open a connection before the request of the other arrives. -/
def crossedRun : Option Crossing :=
  run (step (offererOf sampleMd5 sampleNodeId)) start
    [.send .first true 0, .send .second true 1, .requestArrives 0, .requestArrives 1,
      .responseArrives 0, .responseArrives 1, .closingArrives 1]

/-- In that run both nodes end up with the connection of the first one. -/
theorem crossed_run_converges : ∃ state, crossedRun = some state ∧
    (state.nodes .first).endpoint = some (.connected 0) ∧
    ((∃ connection, ∀ side, (state.nodes side).endpoint = some (.connected connection)) ∨
      ∀ side, (state.nodes side).endpoint = none) ∧
    ¬ ∀ side, WaitsForRefused state side := by
  obtain ⟨state, hrun, hcomputed⟩ : ∃ state, crossedRun = some state ∧
      (decide (Quiescent state) &&
        decide ((state.nodes .first).endpoint = some (.connected 0))) = true :=
    (Option.any_eq_true _ _).mp (by decide +kernel)
  obtain ⟨hquiet, hendpoint⟩ := Bool.and_eq_true_iff.mp hcomputed
  have hdiffer : offeringHash sampleMd5 sampleNodeId .first ≠
      offeringHash sampleMd5 sampleNodeId .second := by decide +kernel
  obtain ⟨hconverges, hnever⟩ := crossing_converges hdiffer
    (Reachable.of_run _ (fun _ _ _ ↦ trivial) (.start rfl) hrun)
  exact ⟨state, hrun, of_decide_eq_true hendpoint, hconverges (of_decide_eq_true hquiet), hnever⟩

end Crossing

end PomboStorageNode.Dht
