import PomboStorageNode.Sdk.OrderedMessageChain
import PomboStorageNode.Library.Transition
import PomboStorageNode.Utils

/-!
# The tasks of the gap filler

When the chain finds a gap, `GapFiller.ts` starts a task for it: it waits, looks up the storage
nodes of the stream, makes up to `maxRequestsPerGap` requests with a wait between two of them, and
adds the messages it gets to the chain. A task that is through with that gives the gap up with
`resolveMessages`. When the chain resolves the gap, the signal of the task is aborted; the task
notices it in its waits only.

A task is modelled by the `await` it is in, and a step of the system is one stretch of code between
two of them, or a message from the network. `history` records what the claim of isolation is about.
`tasks_isolated` holds in the runs in which no task leaves an empty lookup or its last request with
its signal aborted (`InTime`): there is no wait behind these two. `resolvedGapGivesUpNext` is a run
with such a step.
-/

set_option autoImplicit false

namespace PomboStorageNode.Sdk.GapFiller

open Library OrderedMessageChain

/-! ### The state -/

/-- `GapFillStrategy`. -/
inductive GapFillStrategy
  | light
  | full
  deriving DecidableEq

/-- The options that decide where a task goes. -/
structure GapFillerOptions where
  strategy : GapFillStrategy
  maxRequestsPerGap : ℕ

/-- The `await` that a task is in. A task that has ended was aborted or an error was thrown; one
that gave up was through with its requests and called `resolveMessages`. -/
inductive Phase
  | initialWait
  | lookup
  | resend (request : ℕ)
  | retryWait (request : ℕ)
  | ended
  | gaveUp
  deriving DecidableEq

/-- A task: its gap, whether its signal is aborted, and where it is. -/
structure Task (Content : Type*) where
  gap : Gap Content
  aborted : Bool
  phase : Phase
  deriving DecidableEq

/-- What is recorded of the past: the chain resolved the gap of a task, a task called
`resolveMessages`, and the chain gave a gap up. -/
inductive Act (Content : Type*)
  | gapResolved (task : ℕ)
  | resolveMessages (task : ℕ)
  | unfillableGap (gap : Gap Content)
  deriving DecidableEq

/-- The chain, all tasks in the order in which they were started, the index of the current one, and
the acts so far. -/
structure State (Content : Type*) where
  chain : Chain Content
  tasks : List (Task Content)
  currentTask : Option ℕ
  history : List (Act Content)

variable {Content : Type*}

/-- A gap filler on a new chain. -/
def State.create : State Content := ⟨Chain.create, [], none, []⟩

/-- The code of a task up to its next `await`. -/
def State.setPhase (state : State Content) (task : ℕ) (phase : Phase) : State Content :=
  { state with tasks := state.tasks.modify task fun entry ↦ { entry with phase := phase } }

/-! ### Steps -/

/-- The listeners of the gap filler. -/
def handleEvent (state : State Content) : Event Content → State Content
  | .gapFound gap =>
    { state with
      tasks := state.tasks ++ [⟨gap, false, .initialWait⟩]
      currentTask := some state.tasks.length }
  | .gapResolved =>
    match state.currentTask with
    | some task =>
      { state with
        tasks := state.tasks.modify task fun entry ↦ { entry with aborted := true }
        currentTask := none
        history := state.history ++ [.gapResolved task] }
    | none => state
  | .unfillableGap gap => { state with history := state.history ++ [.unfillableGap gap] }
  | .orderedMessageAdded _ => state

/-- A call of the chain, with its events. -/
def callChain (state : State Content) (call : Call Content) : State Content :=
  let chain := perform state.chain call
  (chain.emitted.drop state.chain.emitted.length).foldl handleEvent { state with chain := chain }

/-- The last part of a task: it gives its gap up. -/
def giveUp (options : GapFillerOptions) (state : State Content) (task : ℕ) (gap : Gap Content) :
    State Content :=
  let calling := { state.setPhase task .gaveUp with
    history := state.history ++ [.resolveMessages task] }
  match options.strategy with
  | .full => callChain calling (.resolveTo gap.toMsg.messageRef)
  | .light => callChain calling .resolveAll

/-- How a request ends. A failure is logged and an abort is swallowed. -/
inductive ResendEnd
  | completed
  | failed
  | abortError
  deriving DecidableEq

/-- What can happen: a message arrives from the network, a wait of a task is over (its time has
elapsed or its signal is aborted), its lookup is answered or fails, its request yields a message or
ends. -/
inductive Step (Content : Type*)
  | addMessage (msg : StreamMessage Content)
  | waitOver (task : ℕ)
  | lookupAnswered (task : ℕ) (addresses : List Utils.EthereumAddress)
  | lookupFailed (task : ℕ)
  | resendYields (task : ℕ) (msg : StreamMessage Content)
  | resendEnds (task : ℕ) (resendEnd : ResendEnd)

/-- The code of a task behind one of its waits, which rejects if the signal is aborted. -/
def afterWait (options : GapFillerOptions) (state : State Content) (task : ℕ)
    (entry : Task Content) : Option (State Content) :=
  match entry.phase with
  | .initialWait =>
    if entry.aborted then some (state.setPhase task .ended)
    else if 0 < options.maxRequestsPerGap then some (state.setPhase task .lookup)
    else some (giveUp options state task entry.gap)
  | .retryWait request =>
    if entry.aborted then some (state.setPhase task .ended)
    else some (state.setPhase task (.resend (request + 1)))
  | _ => none

/-- The step relation. -/
def step (options : GapFillerOptions) (state : State Content) :
    Step Content → Option (State Content)
  | .addMessage msg => some (callChain state (.addMessage msg))
  | .waitOver task => state.tasks[task]?.bind (afterWait options state task)
  | .lookupAnswered task addresses => state.tasks[task]?.bind fun entry ↦
    match entry.phase with
    | .lookup =>
      if 0 < addresses.length then some (state.setPhase task (.resend 0))
      else some (giveUp options state task entry.gap)
    | _ => none
  | .lookupFailed task => state.tasks[task]?.bind fun entry ↦
    match entry.phase with
    | .lookup => some (state.setPhase task .ended)
    | _ => none
  | .resendYields task msg => state.tasks[task]?.bind fun entry ↦
    match entry.phase with
    | .resend _ => some (callChain state (.addMessage msg))
    | _ => none
  | .resendEnds task _ => state.tasks[task]?.bind fun entry ↦
    match entry.phase with
    | .resend request =>
      if request ≠ options.maxRequestsPerGap - 1 then
        some (state.setPhase task (.retryWait request))
      else some (giveUp options state task entry.gap)
    | _ => none

/-- No task leaves an empty lookup, or its last request, with its signal aborted. -/
def InTime (options : GapFillerOptions) (state : State Content) : Step Content → Prop
  | .lookupAnswered task addresses => addresses = [] →
    ∀ entry, state.tasks[task]? = some entry → entry.aborted = false
  | .resendEnds task _ => ∀ entry, state.tasks[task]? = some entry →
    entry.phase = .resend (options.maxRequestsPerGap - 1) → entry.aborted = false
  | _ => True

/-! ### Isolation -/

/-- No task called `resolveMessages` after its gap was resolved, and no gap was given up whose own
task was not through with its requests. -/
def Isolated (state : State Content) : Prop :=
  (∀ task, state.history.Pairwise
    fun earlier later ↦ ¬(earlier = .gapResolved task ∧ later = .resolveMessages task)) ∧
  ∀ gap, .unfillableGap gap ∈ state.history → ∀ (task : ℕ) (entry : Task Content),
    state.tasks[task]? = some entry → entry.gap.toMsg = gap.toMsg → entry.phase = .gaveUp

/-! ### The events of a call -/

/-- The events of the loop of a call: messages go out, gaps are given up together with the message
at their end, and the gap is resolved after the message at its end went out. The messages in front
of the call are those of `before`; gaps are given up only in a call that does so. -/
inductive LoopTrace (before : List (Event Content)) (givesUp : Bool)
    (start : Option (Gap Content)) : List (Event Content) → Option (Gap Content) → Prop
  | nil : LoopTrace before givesUp start [] start
  | added {events : List (Event Content)} {gap : Option (Gap Content)}
      (msg : StreamMessage Content) : LoopTrace before givesUp start events gap →
      LoopTrace before givesUp start (events ++ [.orderedMessageAdded msg]) gap
  | givenUp {events : List (Event Content)} {gap : Option (Gap Content)} (given : Gap Content) :
      givesUp = true → LoopTrace before givesUp start events gap →
      (∀ msg ∈ messages (before ++ events), msg.messageRef ≠ given.toMsg.messageRef) →
      LoopTrace before givesUp start
        (events ++ [.unfillableGap given] ++ [.orderedMessageAdded given.toMsg]) gap
  | resolved {events : List (Event Content)} {gap : Gap Content} :
      LoopTrace before givesUp start events (some gap) →
      (∃ msg ∈ messages (before ++ events), msg.messageRef = gap.toMsg.messageRef) →
      LoopTrace before givesUp start (events ++ [.gapResolved]) none

/-- The test of a message that passes emits nothing, or gives the gap in front of it up. -/
def GivesUp (isConsumable : Chain Content → StreamMessage Content → Bool × List (Event Content))
    (givesUp : Bool) : Prop :=
  ∀ chain msg consumable events, isConsumable chain msg = (consumable, events) → events = [] ∨
    (givesUp = true ∧ consumable = true ∧ events = [.unfillableGap ⟨chain.lastOrderedMsg, msg⟩])

theorem givesUp_isNext : GivesUp (@Chain.isNext Content) false := by
  intro chain msg consumable events htest
  exact Or.inl (Prod.mk.inj htest).2.symm

theorem givesUp_isNextOrGivenUp (toRef : Option MessageRef) :
    GivesUp (@Chain.isNextOrGivenUp Content toRef) true := by
  intro chain msg consumable events htest
  unfold Chain.isNextOrGivenUp at htest
  split_ifs at htest
  · exact Or.inl (Prod.mk.inj htest).2.symm
  · obtain ⟨rfl, rfl⟩ := Prod.mk.inj htest
    exact Or.inr ⟨rfl, rfl, rfl⟩
  · exact Or.inl (Prod.mk.inj htest).2.symm

/-- The events of the loop. -/
theorem exists_loopTrace
    {isConsumable : Chain Content → StreamMessage Content → Bool × List (Event Content)}
    {givesUp : Bool} (htest : GivesUp isConsumable givesUp) {chain : Chain Content}
    (hinvariant : Invariant chain) :
    Invariant (chain.consumeLoop isConsumable) ∧ ∃ events,
      (chain.consumeLoop isConsumable).emitted = chain.emitted ++ events ∧
      LoopTrace chain.emitted givesUp chain.currentGap events
        (chain.consumeLoop isConsumable).currentGap := by
  obtain ⟨final, hfinal, hend⟩ := @consumeLoop_rule Content isConsumable
    (fun current ↦ Invariant current ∧ ∃ events, current.emitted = chain.emitted ++ events ∧
      LoopTrace chain.emitted givesUp chain.currentGap events current.currentGap)
    (by
      rintro current next rest told ⟨hcurrent, events, hemitted, htrace⟩ hitems hnext
      have hfresh : ∀ msg ∈ messages (chain.emitted ++ events),
          msg.messageRef ≠ next.messageRef := fun msg hmsg ↦
        (hcurrent.above msg (hemitted ▸ hmsg) next (hitems ▸ List.mem_cons_self)).ne
      -- The message goes out, after the gap in front of it was given up or not.
      have hsent : ∃ more, current.emitted ++ told ++ [.orderedMessageAdded next] =
          chain.emitted ++ more ∧ next ∈ messages more ∧
          LoopTrace chain.emitted givesUp chain.currentGap more current.currentGap := by
        rcases htest current next true told hnext with rfl | ⟨hgives, -, rfl⟩
        · refine ⟨events ++ [.orderedMessageAdded next], ?_, ?_, htrace.added next⟩
          · rw [hemitted, List.append_nil, List.append_assoc]
          · rw [messages_append]
            exact List.mem_append_right _ List.mem_cons_self
        · refine ⟨_, ?_, ?_, htrace.givenUp ⟨current.lastOrderedMsg, next⟩ hgives hfresh⟩
          · rw [hemitted]
            simp only [List.append_assoc]
          · rw [messages_append]
            exact List.mem_append_right _ List.mem_cons_self
      obtain ⟨more, hmore, hmem, hmoreTrace⟩ := hsent
      have hsilent : Silent told := by
        rcases htest current next true told hnext with rfl | ⟨-, -, rfl⟩
        · exact ⟨rfl, rfl⟩
        · exact ⟨rfl, rfl⟩
      refine ⟨hcurrent.consume hitems hsilent, ?_⟩
      rcases consume_cases current told next with ⟨gap, hgap, href, heq⟩ | ⟨-, heq⟩
      · rw [heq]
        refine ⟨more ++ [.gapResolved], ?_, ?_⟩
        · rw [hmore, List.append_assoc]
        · rw [hgap] at hmoreTrace
          refine hmoreTrace.resolved ⟨next, ?_, href.symm⟩
          rw [messages_append]
          exact List.mem_append_right _ hmem
      · rw [heq]
        exact ⟨more, hmore, hmoreTrace⟩)
    chain ⟨hinvariant, [], (List.append_nil _).symm, .nil⟩
  rcases hend with ⟨-, heq⟩ | ⟨next, rest, told, -, hstop, heq⟩
  · exact heq ▸ hfinal
  · have htold : told = [] := by
      rcases htest final next false told hstop with hnil | ⟨-, hfalse, -⟩
      · exact hnil
      · cases hfalse
    rw [heq, htold]
    simpa only [List.append_nil] using hfinal

/-- The events of a call: those of the loop, and then possibly a gap that is found. -/
theorem exists_callTrace {chain : Chain Content} (hrested : Rested chain) (call : Call Content) :
    ∃ events gap,
      LoopTrace chain.emitted (match call with | .addMessage _ => false | _ => true)
        chain.currentGap events gap ∧
      (((perform chain call).emitted = chain.emitted ++ events ∧
          (perform chain call).currentGap = gap) ∨
        ∃ found, gap = none ∧
          (perform chain call).emitted = chain.emitted ++ events ++ [.gapFound found] ∧
          (perform chain call).currentGap = some found ∧
          ∀ msg ∈ messages (chain.emitted ++ events),
            msg.messageRef ≠ found.toMsg.messageRef) := by
  have hchecked : ∀ {loop : Chain Content} {events : List (Event Content)}, Invariant loop →
      loop.emitted = chain.emitted ++ events →
      (loop.checkGapFound.emitted = chain.emitted ++ events ∧
          loop.checkGapFound.currentGap = loop.currentGap) ∨
        ∃ found, loop.currentGap = none ∧
          loop.checkGapFound.emitted = chain.emitted ++ events ++ [.gapFound found] ∧
          loop.checkGapFound.currentGap = some found ∧
          ∀ msg ∈ messages (chain.emitted ++ events),
            msg.messageRef ≠ found.toMsg.messageRef := by
    intro loop events hloop hemitted
    rcases checkGapFound_cases loop with ⟨first, rest, hitems, hgap, heq⟩ | ⟨-, heq⟩
    · refine Or.inr ⟨⟨loop.lastOrderedMsg, first⟩, hgap, ?_, ?_, fun msg hmsg ↦ ?_⟩
      · rw [heq, hemitted]
      · rw [heq]
      · exact (hloop.above msg (hemitted ▸ hmsg) first (hitems ▸ List.mem_cons_self)).ne
    · exact Or.inl ⟨(congrArg Chain.emitted heq).trans hemitted, congrArg Chain.currentGap heq⟩
  cases call with
  | addMessage msg =>
    by_cases hstale : chain.isStaleMessage msg = true
    · refine ⟨[], chain.currentGap, .nil, Or.inl ?_⟩
      simp only [perform, Chain.addMessage, hstale, if_true, List.append_nil, and_self]
    · obtain ⟨hloop, events, hemitted, htrace⟩ :=
        exists_loopTrace givesUp_isNext (hrested.push (Bool.eq_false_iff.mpr hstale))
      have hcall : perform chain (.addMessage msg) = (Chain.consumeLoop Chain.isNext
          { chain with pendingMsgs := chain.pendingMsgs.push compareMessages msg }).checkGapFound :=
        if_neg hstale
      rw [hcall]
      exact ⟨events, _, htrace, hchecked hloop hemitted⟩
  | resolveTo toRef =>
    obtain ⟨hloop, events, hemitted, htrace⟩ :=
      exists_loopTrace (givesUp_isNextOrGivenUp (some toRef)) hrested.toInvariant
    exact ⟨events, _, htrace, hchecked hloop hemitted⟩
  | resolveAll =>
    obtain ⟨-, events, hemitted, htrace⟩ :=
      exists_loopTrace (givesUp_isNextOrGivenUp none) hrested.toInvariant
    exact ⟨events, _, htrace, Or.inl ⟨hemitted, rfl⟩⟩

/-! ### The invariant -/

/-- The tasks agree with the chain, of which `sent` are the events and `gap` is the open gap: the
task of the open gap is the current one and not aborted, every other task is aborted and the message
at the end of its gap went out; what was resolved is not current; and the acts are isolated. -/
structure Coupled (sent : List (Event Content)) (gap : Option (Gap Content))
    (state : State Content) : Prop where
  current : ∀ open_, gap = some open_ → ∃ task entry, state.currentTask = some task ∧
    state.tasks[task]? = some entry ∧ entry.gap = open_ ∧ entry.aborted = false
  idle : gap = none → state.currentTask = none
  past : ∀ (task : ℕ) (entry : Task Content), state.tasks[task]? = some entry →
    state.currentTask ≠ some task → entry.aborted = true ∧
      ∃ msg ∈ messages sent, msg.messageRef = entry.gap.toMsg.messageRef
  resolved : ∀ task, .gapResolved task ∈ state.history →
    state.currentTask ≠ some task ∧ task < state.tasks.length
  ordered : ∀ task, state.history.Pairwise
    fun earlier later ↦ ¬(earlier = .gapResolved task ∧ later = .resolveMessages task)
  given : ∀ gap, .unfillableGap gap ∈ state.history → gap.toMsg ∈ messages sent ∧
    ∀ (task : ℕ) (entry : Task Content), state.tasks[task]? = some entry →
      entry.gap.toMsg = gap.toMsg → entry.phase = .gaveUp

/-- While gaps are given up, the current task is one that gives up. -/
def Calling (givesUp : Bool) (state : State Content) : Prop :=
  givesUp = true → ∀ (task : ℕ) (entry : Task Content), state.currentTask = some task →
    state.tasks[task]? = some entry → entry.phase = .gaveUp

variable {state : State Content} {sent : List (Event Content)} {gap : Option (Gap Content)}

/-- Further events leave the coupling as it is. -/
theorem Coupled.mono (hcoupled : Coupled sent gap state) (events : List (Event Content)) :
    Coupled (sent ++ events) gap state := by
  have hsub : ∀ msg ∈ messages sent, msg ∈ messages (sent ++ events) := by
    intro msg hmsg
    rw [messages_append]
    exact List.mem_append_left _ hmsg
  refine ⟨hcoupled.current, hcoupled.idle, fun task entry hentry hother ↦ ?_, hcoupled.resolved,
    hcoupled.ordered, fun given hgiven ↦ ?_⟩
  · obtain ⟨haborted, msg, hmsg, href⟩ := hcoupled.past task entry hentry hother
    exact ⟨haborted, msg, hsub msg hmsg, href⟩
  · exact (hcoupled.given given hgiven).imp_left (hsub given.toMsg)

/-- A gap is given up together with the message at its end. -/
theorem Coupled.giveUp (hcoupled : Coupled sent gap state) (hcalling : Calling true state)
    {given : Gap Content}
    (hfresh : ∀ msg ∈ messages sent, msg.messageRef ≠ given.toMsg.messageRef) :
    Coupled (sent ++ [.unfillableGap given] ++ [.orderedMessageAdded given.toMsg]) gap
      { state with history := state.history ++ [.unfillableGap given] } := by
  have hmono := (hcoupled.mono [.unfillableGap given]).mono [.orderedMessageAdded given.toMsg]
  refine ⟨hmono.current, hmono.idle, hmono.past, fun task hact ↦ ?_, fun task ↦ ?_,
    fun other hact ↦ ?_⟩
  · refine hmono.resolved task ?_
    simpa using hact
  · rw [List.pairwise_append]
    refine ⟨hmono.ordered task, List.pairwise_singleton _ _, fun act _ later hlater hboth ↦ ?_⟩
    rw [List.mem_singleton.mp hlater] at hboth
    cases hboth.2
  · rcases List.mem_append.mp hact with hold | hnew
    · exact hmono.given other hold
    · obtain rfl := Act.unfillableGap.inj (List.mem_singleton.mp hnew)
      refine ⟨?_, fun task entry hentry htoMsg ↦ ?_⟩
      · rw [messages_append]
        exact List.mem_append_right _ List.mem_cons_self
      · by_cases hcurrent : state.currentTask = some task
        · exact hcalling rfl task entry hcurrent hentry
        · obtain ⟨-, msg, hmsg, href⟩ := hcoupled.past task entry hentry hcurrent
          rw [htoMsg] at href
          exact absurd href (hfresh msg hmsg)

/-- The gap is resolved: its task is aborted. -/
theorem Coupled.resolve {open_ : Gap Content} (hcoupled : Coupled sent (some open_) state)
    (hsent : ∃ msg ∈ messages sent, msg.messageRef = open_.toMsg.messageRef) :
    Coupled (sent ++ [.gapResolved]) none (handleEvent state .gapResolved) := by
  obtain ⟨current, entry, hcurrent, hentry, hgap, -⟩ := hcoupled.current open_ rfl
  have hmono := hcoupled.mono [.gapResolved]
  simp only [handleEvent, hcurrent]
  refine ⟨nofun, fun _ ↦ rfl, fun task other hother _ ↦ ?_, fun task hact ↦ ?_, fun task ↦ ?_,
    fun given hact ↦ ?_⟩
  · simp only [List.getElem?_modify, Option.map_eq_map, Option.map_eq_some_iff] at hother
    obtain ⟨before, hbefore, rfl⟩ := hother
    split_ifs with htask
    · subst htask
      obtain rfl := Option.some.inj (hbefore.symm.trans hentry)
      obtain ⟨msg, hmsg, href⟩ := hsent
      refine ⟨rfl, msg, ?_, hgap ▸ href⟩
      rw [messages_append]
      exact List.mem_append_left _ hmsg
    · refine hmono.past task before hbefore ?_
      rw [hcurrent]
      exact fun heq ↦ htask (Option.some.inj heq)
  · refine ⟨nofun, ?_⟩
    rw [List.length_modify]
    rcases List.mem_append.mp hact with hold | hnew
    · exact (hmono.resolved task hold).2
    · obtain rfl := Act.gapResolved.inj (List.mem_singleton.mp hnew)
      exact (List.getElem?_eq_some_iff.mp hentry).1
  · rw [List.pairwise_append]
    refine ⟨hmono.ordered task, List.pairwise_singleton _ _, fun act _ later hlater hboth ↦ ?_⟩
    rw [List.mem_singleton.mp hlater] at hboth
    cases hboth.2
  · have hold : .unfillableGap given ∈ state.history := by simpa using hact
    refine (hmono.given given hold).imp_right fun hphase task other hother htoMsg ↦ ?_
    simp only [List.getElem?_modify, Option.map_eq_map, Option.map_eq_some_iff] at hother
    obtain ⟨before, hbefore, rfl⟩ := hother
    split_ifs at htoMsg ⊢
    · exact hphase task before hbefore htoMsg
    · exact hphase task before hbefore htoMsg

/-- A gap is found: a task is started for it. -/
theorem Coupled.find {found : Gap Content} (hcoupled : Coupled sent none state)
    (hfresh : ∀ msg ∈ messages sent, msg.messageRef ≠ found.toMsg.messageRef) :
    Coupled (sent ++ [.gapFound found]) (some found) (handleEvent state (.gapFound found)) := by
  have hmono := hcoupled.mono [.gapFound found]
  have hentries : ∀ (task : ℕ) (entry : Task Content),
      (state.tasks ++ [⟨found, false, .initialWait⟩])[task]? = some entry →
      state.tasks[task]? = some entry ∨
        (task = state.tasks.length ∧ entry = ⟨found, false, .initialWait⟩) := by
    intro task entry hentry
    rw [List.getElem?_append] at hentry
    split_ifs at hentry with hlt
    · exact Or.inl hentry
    · obtain ⟨hindex, heq⟩ := List.getElem?_eq_some_iff.mp hentry
      rw [List.length_singleton] at hindex
      refine Or.inr ⟨by omega, ?_⟩
      rw [← heq]
      exact List.getElem_singleton _
  refine ⟨fun open_ hopen ↦ ?_, nofun, fun task entry hentry hother ↦ ?_, fun task hact ↦ ?_,
    hmono.ordered, fun given hact ↦ ?_⟩
  · obtain rfl := Option.some.inj hopen
    exact ⟨state.tasks.length, ⟨found, false, .initialWait⟩, rfl, by simp [handleEvent], rfl, rfl⟩
  · rcases hentries task entry hentry with hold | ⟨rfl, -⟩
    · refine hmono.past task entry hold ?_
      rw [hcoupled.idle rfl]
      exact nofun
    · exact absurd rfl hother
  · have hold := (hmono.resolved task hact).2
    refine ⟨fun heq ↦ ?_, ?_⟩
    · exact hold.ne (Option.some.inj heq).symm
    · exact hold.trans (by simp [handleEvent])
  · refine (hmono.given given hact).imp_right fun hphase task entry hentry htoMsg ↦ ?_
    rcases hentries task entry hentry with hold | ⟨-, rfl⟩
    · exact hphase task entry hold htoMsg
    · exact absurd (congrArg StreamMessage.messageRef htoMsg.symm)
        (hfresh given.toMsg (hcoupled.given given hact).1)

/-- The events of the loop keep the coupling. -/
theorem Coupled.loop {givesUp : Bool} {start : Option (Gap Content)}
    {events : List (Event Content)} (hcoupled : Coupled sent start state)
    (hcalling : Calling givesUp state) (htrace : LoopTrace sent givesUp start events gap) :
    Coupled (sent ++ events) gap (events.foldl handleEvent state) ∧
      Calling givesUp (events.foldl handleEvent state) := by
  induction htrace with
  | nil =>
    rw [List.append_nil]
    exact ⟨hcoupled, hcalling⟩
  | @added events gap msg htrace ih =>
    rw [List.foldl_append, ← List.append_assoc]
    exact ⟨ih.1.mono _, ih.2⟩
  | @givenUp events gap given hgives htrace hfresh ih =>
    subst hgives
    rw [List.append_assoc, List.foldl_append, ← List.append_assoc, ← List.append_assoc]
    exact ⟨ih.1.giveUp ih.2 hfresh, ih.2⟩
  | @resolved events open_ htrace hsent ih =>
    rw [List.foldl_append, ← List.append_assoc]
    refine ⟨ih.1.resolve hsent, fun hgives task entry hcurrent hentry ↦ ?_⟩
    obtain ⟨current, before, hbefore, -, -, -⟩ := ih.1.current open_ rfl
    simp only [List.foldl_cons, List.foldl_nil, handleEvent, hbefore] at hcurrent
    cases hcurrent

/-! ### Steps keep the invariant -/

/-- The chain is coupled to its tasks, between two steps. -/
structure Sound (state : State Content) : Prop where
  rested : Rested state.chain
  coupled : Coupled state.chain.emitted state.chain.currentGap state

theorem sound_create : Sound (State.create : State Content) where
  rested := rested_create
  coupled := ⟨nofun, fun _ ↦ rfl, nofun, nofun, fun _ ↦ List.Pairwise.nil, nofun⟩

theorem chain_foldl_handleEvent (events : List (Event Content)) (state : State Content) :
    (events.foldl handleEvent state).chain = state.chain := by
  induction events generalizing state with
  | nil => rfl
  | cons event events ih =>
    rw [List.foldl_cons, ih]
    cases event with
    | gapResolved =>
      simp only [handleEvent]
      cases state.currentTask <;> rfl
    | _ => rfl

/-- A call of the chain keeps the invariant. Assumes: if the call gives gaps up, the current task
is one that gives up. -/
theorem Sound.callChain (hsound : Sound state) (call : Call Content)
    (hcalling : Calling (match call with | .addMessage _ => false | _ => true) state) :
    Sound (callChain state call) := by
  have hchain : (GapFiller.callChain state call).chain = perform state.chain call :=
    chain_foldl_handleEvent _ _
  obtain ⟨events, gap, htrace, hend⟩ := exists_callTrace hsound.rested call
  have hcoupled : Coupled state.chain.emitted state.chain.currentGap
      { state with chain := perform state.chain call } :=
    ⟨hsound.coupled.current, hsound.coupled.idle, hsound.coupled.past, hsound.coupled.resolved,
      hsound.coupled.ordered, hsound.coupled.given⟩
  have hloop := (hcoupled.loop hcalling htrace).1
  refine ⟨hchain ▸ hsound.rested.perform call, ?_⟩
  rw [hchain]
  simp only [GapFiller.callChain]
  rcases hend with ⟨hemitted, hgap⟩ | ⟨found, hnone, hemitted, hgap, hfresh⟩
  · rw [hemitted, List.drop_left, hgap]
    exact hloop
  · rw [hemitted, List.append_assoc, List.drop_left, List.foldl_append, hgap, ← List.append_assoc]
    subst hnone
    exact hloop.find hfresh

/-- A task that did not give up moves on. -/
theorem Sound.setPhase (hsound : Sound state) {task : ℕ} {entry : Task Content}
    (hentry : state.tasks[task]? = some entry) (hphase : entry.phase ≠ .gaveUp) (phase : Phase) :
    Sound (state.setPhase task phase) := by
  have hentries : ∀ (other : ℕ) (after : Task Content),
      (state.setPhase task phase).tasks[other]? = some after → ∃ before,
        state.tasks[other]? = some before ∧ before.gap = after.gap ∧
          before.aborted = after.aborted ∧ (other ≠ task → before.phase = after.phase) := by
    intro other after hafter
    simp only [State.setPhase, List.getElem?_modify, Option.map_eq_map,
      Option.map_eq_some_iff] at hafter
    obtain ⟨before, hbefore, rfl⟩ := hafter
    refine ⟨before, hbefore, ?_⟩
    split_ifs with heq
    · exact ⟨rfl, rfl, fun hne ↦ absurd heq.symm hne⟩
    · exact ⟨rfl, rfl, fun _ ↦ rfl⟩
  refine ⟨hsound.rested, fun open_ hopen ↦ ?_, hsound.coupled.idle,
    fun other after hafter hother ↦ ?_, fun other hact ↦ ?_, hsound.coupled.ordered,
    fun given hact ↦ ?_⟩
  · obtain ⟨current, before, hcurrent, hbefore, hgap, haborted⟩ :=
      hsound.coupled.current open_ hopen
    refine ⟨current, if task = current then { before with phase := phase } else before, hcurrent,
      ?_, ?_, ?_⟩
    · simp only [State.setPhase, List.getElem?_modify, hbefore, Option.map_eq_map,
        Option.map_some]
    · split_ifs <;> exact hgap
    · split_ifs <;> exact haborted
  · obtain ⟨before, hbefore, hgap, haborted, -⟩ := hentries other after hafter
    rw [← hgap, ← haborted]
    exact hsound.coupled.past other before hbefore hother
  · refine (hsound.coupled.resolved other hact).imp_right fun hlt ↦ ?_
    simpa only [State.setPhase, List.length_modify] using hlt
  · refine (hsound.coupled.given given hact).imp_right fun hgiven other after hafter htoMsg ↦ ?_
    obtain ⟨before, hbefore, hgap, -, hsame⟩ := hentries other after hafter
    have hgave := hgiven other before hbefore (hgap ▸ htoMsg)
    by_cases heq : other = task
    · subst heq
      obtain rfl := Option.some.inj (hbefore.symm.trans hentry)
      exact absurd hgave hphase
    · exact hsame heq ▸ hgave

/-- A task that is not aborted gives its gap up. -/
theorem Sound.giveUp (hsound : Sound state) {task : ℕ} {entry : Task Content}
    (hentry : state.tasks[task]? = some entry) (hphase : entry.phase ≠ .gaveUp)
    (haborted : entry.aborted = false) (options : GapFillerOptions) :
    Sound (giveUp options state task entry.gap) := by
  have hcurrent : state.currentTask = some task := by
    by_contra hother
    rw [(hsound.coupled.past task entry hentry hother).1] at haborted
    cases haborted
  have hmoved := hsound.setPhase hentry hphase .gaveUp
  have hcalling : Sound { state.setPhase task .gaveUp with
      history := state.history ++ [.resolveMessages task] } := by
    refine ⟨hmoved.rested, hmoved.coupled.current, hmoved.coupled.idle, hmoved.coupled.past,
      fun other hact ↦ ?_, fun other ↦ ?_, fun given hact ↦ ?_⟩
    · refine hmoved.coupled.resolved other ?_
      simpa [State.setPhase] using hact
    · rw [List.pairwise_append]
      refine ⟨hmoved.coupled.ordered other, List.pairwise_singleton _ _, ?_⟩
      rintro act hact later hlater ⟨rfl, hsame⟩
      rw [List.mem_singleton.mp hlater] at hsame
      obtain rfl := Act.resolveMessages.inj hsame
      exact (hmoved.coupled.resolved task hact).1 hcurrent
    · refine hmoved.coupled.given given ?_
      simpa [State.setPhase] using hact
  have hgaveUp : Calling true { state.setPhase task .gaveUp with
      history := state.history ++ [.resolveMessages task] } := by
    intro _ other after hother hafter
    obtain rfl : task = other := Option.some.inj (hcurrent.symm.trans hother)
    simp only [State.setPhase, List.getElem?_modify, hentry, Option.map_eq_map, Option.map_some,
      if_true, Option.some.injEq] at hafter
    exact hafter ▸ rfl
  unfold GapFiller.giveUp
  cases options.strategy with
  | light => exact hcalling.callChain .resolveAll hgaveUp
  | full => exact hcalling.callChain (.resolveTo entry.gap.toMsg.messageRef) hgaveUp

/-- A step in time keeps the invariant. -/
theorem Sound.step {options : GapFillerOptions} {event : Step Content} {next : State Content}
    (hsound : Sound state) (hintime : InTime options state event)
    (hstep : step options state event = some next) : Sound next := by
  cases event with
  | addMessage msg =>
    obtain rfl := Option.some.inj hstep
    exact hsound.callChain (.addMessage msg) nofun
  | waitOver task =>
    obtain ⟨entry, hentry, hafter⟩ := Option.bind_eq_some_iff.mp hstep
    unfold afterWait at hafter
    split at hafter
    · rename_i hphase
      split_ifs at hafter with haborted hrequests
      · obtain rfl := Option.some.inj hafter
        exact hsound.setPhase hentry (hphase ▸ nofun) .ended
      · obtain rfl := Option.some.inj hafter
        exact hsound.setPhase hentry (hphase ▸ nofun) .lookup
      · obtain rfl := Option.some.inj hafter
        exact hsound.giveUp hentry (hphase ▸ nofun) (Bool.eq_false_iff.mpr haborted) options
    · rename_i request hphase
      split_ifs at hafter with haborted
      · obtain rfl := Option.some.inj hafter
        exact hsound.setPhase hentry (hphase ▸ nofun) .ended
      · obtain rfl := Option.some.inj hafter
        exact hsound.setPhase hentry (hphase ▸ nofun) (.resend (request + 1))
    · cases hafter
  | lookupAnswered task addresses =>
    obtain ⟨entry, hentry, hafter⟩ := Option.bind_eq_some_iff.mp hstep
    split at hafter
    · rename_i hphase
      split_ifs at hafter with hsome
      · obtain rfl := Option.some.inj hafter
        exact hsound.setPhase hentry (hphase ▸ nofun) (.resend 0)
      · obtain rfl := Option.some.inj hafter
        have hnone : addresses = [] := List.length_eq_zero_iff.mp (by omega)
        exact hsound.giveUp hentry (hphase ▸ nofun) (hintime hnone entry hentry) options
    · cases hafter
  | lookupFailed task =>
    obtain ⟨entry, hentry, hafter⟩ := Option.bind_eq_some_iff.mp hstep
    split at hafter
    · rename_i hphase
      obtain rfl := Option.some.inj hafter
      exact hsound.setPhase hentry (hphase ▸ nofun) .ended
    · cases hafter
  | resendYields task msg =>
    obtain ⟨entry, -, hafter⟩ := Option.bind_eq_some_iff.mp hstep
    split at hafter
    · obtain rfl := Option.some.inj hafter
      exact hsound.callChain (.addMessage msg) nofun
    · cases hafter
  | resendEnds task resendEnd =>
    obtain ⟨entry, hentry, hafter⟩ := Option.bind_eq_some_iff.mp hstep
    split at hafter
    · rename_i request hphase
      split_ifs at hafter with hmore
      · obtain rfl := Option.some.inj hafter
        exact hsound.setPhase hentry (hphase ▸ nofun) (.retryWait request)
      · obtain rfl := Option.some.inj hafter
        have hlast : entry.phase = .resend (options.maxRequestsPerGap - 1) := by
          rw [hphase, not_ne_iff.mp hmore]
        exact hsound.giveUp hentry (hphase ▸ nofun) (hintime entry hentry hlast) options
    · cases hafter

/-- The tasks of the gap filler do not disturb each other. In every run of messages from the
network and of the tasks in which no task leaves an empty lookup or its last request with its signal
aborted: once the gap of a task is resolved, the task does not call `resolveMessages`, and no gap is
given up whose own task was not through with its requests. -/
theorem tasks_isolated (options : GapFillerOptions) {state : State Content}
    (hreachable : Transition.Reachable (step options) (InTime options) (· = State.create) state) :
    Isolated state := by
  have hsound : Sound state := hreachable.invariant
    (fun start hstart ↦ hstart ▸ sound_create)
    fun before event after _ hbefore hguard hstep ↦ hbefore.step hguard hstep
  exact ⟨hsound.coupled.ordered, fun gap hgap ↦ (hsound.coupled.given gap hgap).2⟩

/-! ### Runs -/

/-- `InTime`, decided. -/
def checkInTime (options : GapFillerOptions) (state : State Content) : Step Content → Bool
  | .lookupAnswered task addresses =>
    !addresses.isEmpty || state.tasks[task]?.all fun entry ↦ !entry.aborted
  | .resendEnds task _ => state.tasks[task]?.all fun entry ↦
    !(entry.phase = .resend (options.maxRequestsPerGap - 1) && entry.aborted)
  | _ => true

theorem inTime_of_checkInTime (options : GapFillerOptions) (state : State Content)
    (event : Step Content) (hcheck : checkInTime options state event = true) :
    InTime options state event := by
  cases event with
  | lookupAnswered task addresses =>
    rintro rfl entry hentry
    simpa [checkInTime, hentry] using hcheck
  | resendEnds task resendEnd =>
    intro entry hentry hphase
    simpa [checkInTime, hentry, hphase] using hcheck
  | _ => exact trivial

/-- A message that names the millisecond in front of its own. -/
def messageAt (timestamp : ℕ) : StreamMessage Unit :=
  ⟨⟨timestamp, 0⟩, some ⟨timestamp - 1, 0⟩, ()⟩

/-- A storage node. -/
def storageNode : Utils.EthereumAddress :=
  ⟨"0x0000000000000000000000000000000000000002", by decide +kernel⟩

/-- The messages 1 and 3 arrive. The task of the gap between them finds a storage node, and its
request ends without a message, so that it gives the gap up; 5 arrives. -/
def givesUpInTime : List (Step Unit) :=
  [.addMessage (messageAt 1), .addMessage (messageAt 3), .waitOver 0,
    .lookupAnswered 0 [storageNode], .resendEnds 0 .failed, .addMessage (messageAt 5)]

/-- A gap that is given up in time, and a task that is started for the next one. -/
theorem tasks_isolated_givesUpInTime : ∃ state,
    Transition.checkedRun (step ⟨.light, 1⟩) (checkInTime ⟨.light, 1⟩) State.create
        givesUpInTime = some state ∧
      state.tasks.map Task.phase = [.gaveUp, .initialWait] ∧
      state.history = [.resolveMessages 0, .unfillableGap ⟨some (messageAt 1), messageAt 3⟩,
        .gapResolved 0] ∧ Isolated state := by
  have hrun : ((Transition.checkedRun (step ⟨.light, 1⟩) (checkInTime ⟨.light, 1⟩) State.create
      givesUpInTime).map fun state ↦ (state.tasks.map Task.phase, state.history)) =
        some ([.gaveUp, .initialWait],
          [.resolveMessages 0, .unfillableGap ⟨some (messageAt 1), messageAt 3⟩,
            .gapResolved 0]) := by
    decide +kernel
  obtain ⟨state, hstate, hfacts⟩ := Option.map_eq_some_iff.mp hrun
  obtain ⟨hphases, hhistory⟩ := Prod.mk.inj hfacts
  have hreachable : Transition.Reachable (step ⟨.light, 1⟩) (InTime ⟨.light, 1⟩)
      (· = State.create) state :=
    .of_checkedRun _ (inTime_of_checkInTime ⟨.light, 1⟩) (.start rfl) hstate
  exact ⟨state, hstate, hphases, hhistory, tasks_isolated ⟨.light, 1⟩ hreachable⟩

/-- The only request of the first task yields the missing message, which resolves the gap; then 5
arrives and opens the next gap; then the request ends. -/
def resolvedInLastRequest : List (Step Unit) :=
  [.addMessage (messageAt 1), .addMessage (messageAt 3), .waitOver 0,
    .lookupAnswered 0 [storageNode], .resendYields 0 (messageAt 2), .addMessage (messageAt 5),
    .resendEnds 0 .completed]

/-- The task of the gap that was resolved gives the next gap up, whose own task has not made a
request yet. -/
theorem resolvedGapGivesUpNext : ∃ state,
    Transition.Reachable (step ⟨.light, 1⟩) (fun _ _ ↦ True) (· = State.create) state ∧
      state.history = [.gapResolved 0, .resolveMessages 0,
        .unfillableGap ⟨some (messageAt 3), messageAt 5⟩, .gapResolved 1] ∧
      state.tasks[1]? =
        some ⟨⟨some (messageAt 3), messageAt 5⟩, true, .initialWait⟩ ∧
      ¬ Isolated state := by
  have hrun : ((Transition.run (step ⟨.light, 1⟩) State.create
      resolvedInLastRequest).map fun state ↦ (state.history, state.tasks[1]?)) =
        some ([.gapResolved 0, .resolveMessages 0,
          .unfillableGap ⟨some (messageAt 3), messageAt 5⟩, .gapResolved 1],
          some ⟨⟨some (messageAt 3), messageAt 5⟩, true, .initialWait⟩) := by
    decide +kernel
  obtain ⟨state, hstate, hfacts⟩ := Option.map_eq_some_iff.mp hrun
  obtain ⟨hhistory, htask⟩ := Prod.mk.inj hfacts
  refine ⟨state, .of_run _ (fun _ _ _ ↦ trivial) (.start rfl) hstate, hhistory, htask, ?_⟩
  intro hisolated
  have hordered := hisolated.1 0
  rw [hhistory, List.pairwise_cons] at hordered
  exact hordered.1 (.resolveMessages 0) List.mem_cons_self ⟨rfl, rfl⟩

end PomboStorageNode.Sdk.GapFiller
