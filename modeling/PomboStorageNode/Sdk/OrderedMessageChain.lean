import PomboStorageNode.Utils.Heap
import Mathlib.Data.Prod.Lex
import Mathlib.Data.List.Chain
import Mathlib.Data.List.Nodup

/-!
# The chain of ordered messages

A subscriber gets the messages of one publisher from the network and, where some are missing, from
a storage node. `OrderedMessageChain.ts` puts them in order: a message goes out at once if its
`prevMsgRef` names the message that went out last, and waits in a heap if it does not; the first
message that has to wait opens a gap, which is resolved when the message at its end has gone out.

The state records, next to the fields of the class, the events in the order in which they were
emitted. `consumeLoop_rule` is the rule of the only loop: what every round keeps holds at its end,
where the heap is empty or its first message is not consumable. Two invariants are carried by it:
`Invariant` couples the last message, the heap, the gap and the events after any calls
(`ordered_and_accounted`), and `Progress` says how far a chain of linked messages has come when
they arrive in any order (`arrival_order_irrelevant`).
-/

set_option autoImplicit false

namespace PomboStorageNode.Sdk.OrderedMessageChain

open Utils

/-! ### Messages -/

/-- `MessageRef`; both numbers are integers that are not negative. -/
structure MessageRef where
  timestamp : ℕ
  sequenceNumber : ℕ
  deriving DecidableEq

namespace MessageRef

/-- `compareTo`. -/
def compareTo (ref other : MessageRef) : ℤ :=
  if ref.timestamp < other.timestamp then -1
  else if ref.timestamp > other.timestamp then 1
  else if ref.sequenceNumber < other.sequenceNumber then -1
  else if ref.sequenceNumber > other.sequenceNumber then 1
  else 0

/-- The references in the order of timestamp and sequence number. -/
instance : LinearOrder MessageRef :=
  LinearOrder.lift' (fun ref ↦ toLex (ref.timestamp, ref.sequenceNumber)) fun first second heq ↦ by
    obtain ⟨htimestamp, hsequence⟩ := Prod.mk.inj (toLex.injective heq)
    cases first
    cases second
    simp_all

theorem lt_iff {first second : MessageRef} : first < second ↔
    first.timestamp < second.timestamp ∨
      (first.timestamp = second.timestamp ∧ first.sequenceNumber < second.sequenceNumber) :=
  Prod.lex_iff

theorem compareTo_neg_iff {ref other : MessageRef} : ref.compareTo other < 0 ↔ ref < other := by
  rw [lt_iff, compareTo]
  split_ifs <;> omega

theorem compareTo_zero_iff {ref other : MessageRef} : ref.compareTo other = 0 ↔ ref = other := by
  obtain ⟨timestamp, sequenceNumber⟩ := ref
  obtain ⟨otherTimestamp, otherSequenceNumber⟩ := other
  simp only [MessageRef.mk.injEq, compareTo]
  grind

theorem compareTo_nonpos_iff {ref other : MessageRef} : ref.compareTo other ≤ 0 ↔ ref ≤ other := by
  rw [Int.le_iff_lt_or_eq, compareTo_neg_iff, compareTo_zero_iff, le_iff_lt_or_eq]

end MessageRef

/-- `areEqualRefs`. -/
def areEqualRefs (first second : MessageRef) : Bool := first.compareTo second = 0

theorem areEqualRefs_iff {first second : MessageRef} :
    areEqualRefs first second = true ↔ first = second := by
  rw [areEqualRefs, decide_eq_true_eq, MessageRef.compareTo_zero_iff]

/-- What the chain reads of a `StreamMessage`, and its content. -/
structure StreamMessage (Content : Type*) where
  messageRef : MessageRef
  prevMsgRef : Option MessageRef
  content : Content
  deriving DecidableEq

/-- `Gap`. The message in front of the gap is `none` where the source reads a message that is not
defined. -/
structure Gap (Content : Type*) where
  fromMsg : Option (StreamMessage Content)
  toMsg : StreamMessage Content
  deriving DecidableEq

/-- `Events`, with what is passed to the listeners. -/
inductive Event (Content : Type*)
  | orderedMessageAdded (msg : StreamMessage Content)
  | gapFound (gap : Gap Content)
  | gapResolved
  | unfillableGap (gap : Gap Content)
  deriving DecidableEq

/-! ### The chain -/

/-- The fields of `OrderedMessageChain` and the events that were emitted, the latest one last. -/
structure Chain (Content : Type*) where
  lastOrderedMsg : Option (StreamMessage Content)
  currentGap : Option (Gap Content)
  pendingMsgs : Heap (StreamMessage Content)
  emitted : List (Event Content)
  deriving DecidableEq

variable {Content : Type*}

/-- The comparison of the heap. -/
def compareMessages (first second : StreamMessage Content) : ℤ :=
  first.messageRef.compareTo second.messageRef

namespace Chain

/-- The chain after the constructor. -/
def create : Chain Content := ⟨none, none, ⟨[]⟩, []⟩

/-- `isNextOrderedMessage`. -/
def isNextOrderedMessage (chain : Chain Content) (msg : StreamMessage Content) : Bool :=
  match chain.lastOrderedMsg, msg.prevMsgRef with
  | none, _ => true
  | some _, none => true
  | some last, some previousRef => areEqualRefs previousRef last.messageRef

/-- `isStaleMessage`. -/
def isStaleMessage (chain : Chain Content) (msg : StreamMessage Content) : Bool :=
  (chain.lastOrderedMsg.any fun last ↦ msg.messageRef.compareTo last.messageRef ≤ 0) ||
    chain.pendingMsgs.contains compareMessages msg

/-- `checkGapResolved`. -/
def checkGapResolved (chain : Chain Content) : Chain Content :=
  match chain.lastOrderedMsg, chain.currentGap with
  | some last, some gap =>
    if areEqualRefs last.messageRef gap.toMsg.messageRef then
      { chain with currentGap := none, emitted := chain.emitted ++ [.gapResolved] }
    else chain
  | _, _ => chain

/-- `checkGapFound`. -/
def checkGapFound (chain : Chain Content) : Chain Content :=
  match chain.pendingMsgs.peek, chain.currentGap with
  | some first, none =>
    { chain with
      currentGap := some ⟨chain.lastOrderedMsg, first⟩
      emitted := chain.emitted ++ [.gapFound ⟨chain.lastOrderedMsg, first⟩] }
  | _, _ => chain

/-- The body of the loop, where `events` is what the test of the message emitted. -/
def consume (chain : Chain Content) (events : List (Event Content))
    (next : StreamMessage Content) : Chain Content :=
  checkGapResolved
    { chain with
      pendingMsgs := chain.pendingMsgs.pop
      lastOrderedMsg := some next
      emitted := chain.emitted ++ events ++ [.orderedMessageAdded next] }

theorem pendingMsgs_checkGapResolved (chain : Chain Content) :
    chain.checkGapResolved.pendingMsgs = chain.pendingMsgs := by
  unfold checkGapResolved
  split
  · split_ifs <;> rfl
  · rfl

theorem pendingMsgs_consume (chain : Chain Content) (events : List (Event Content))
    (next : StreamMessage Content) :
    (chain.consume events next).pendingMsgs = chain.pendingMsgs.pop :=
  pendingMsgs_checkGapResolved _

/-- The loop of `consumePendingOrderedMessages`; the test of a message is a decision and the events
that it emits. -/
def consumeLoop (isConsumable : Chain Content → StreamMessage Content → Bool × List (Event Content))
    (chain : Chain Content) : Chain Content :=
  match _hitems : chain.pendingMsgs.items with
  | [] => chain
  | next :: _ =>
    match isConsumable chain next with
    | (true, events) => consumeLoop isConsumable (chain.consume events next)
    | (false, events) => { chain with emitted := chain.emitted ++ events }
termination_by chain.pendingMsgs.items.length
decreasing_by
  rw [pendingMsgs_consume, Heap.pop, _hitems]
  exact Nat.lt_succ_self _

/-- `consumePendingOrderedMessages`. -/
def consumePendingOrderedMessages
    (isConsumable : Chain Content → StreamMessage Content → Bool × List (Event Content))
    (gapCheckEnabled : Bool) (chain : Chain Content) : Chain Content :=
  let consumed := consumeLoop isConsumable chain
  if gapCheckEnabled then consumed.checkGapFound else consumed

/-- The test of `addMessage`. -/
def isNext (chain : Chain Content) (msg : StreamMessage Content) : Bool × List (Event Content) :=
  (chain.isNextOrderedMessage msg, [])

/-- `addMessage`. -/
def addMessage (chain : Chain Content) (msg : StreamMessage Content) : Chain Content :=
  if chain.isStaleMessage msg then chain
  else consumePendingOrderedMessages isNext true
    { chain with pendingMsgs := chain.pendingMsgs.push compareMessages msg }

/-- The test of `resolveMessages`. -/
def isNextOrGivenUp (toRef : Option MessageRef) (chain : Chain Content)
    (msg : StreamMessage Content) : Bool × List (Event Content) :=
  if chain.isNextOrderedMessage msg then (true, [])
  else if toRef.all fun ref ↦ msg.messageRef.compareTo ref ≤ 0 then
    (true, [.unfillableGap ⟨chain.lastOrderedMsg, msg⟩])
  else (false, [])

/-- `resolveMessages`. -/
def resolveMessages (chain : Chain Content) (toRef : Option MessageRef) (gapCheckEnabled : Bool) :
    Chain Content :=
  consumePendingOrderedMessages (isNextOrGivenUp toRef) gapCheckEnabled chain

end Chain

/-! ### The events -/

/-- The messages that went out, in order. -/
def messages (events : List (Event Content)) : List (StreamMessage Content) :=
  events.filterMap fun
    | .orderedMessageAdded msg => some msg
    | _ => none

/-- The events about gaps, in order: `true` for `gapFound` and `false` for `gapResolved`. -/
def gapEvents (events : List (Event Content)) : List Bool :=
  events.filterMap fun
    | .gapFound _ => some true
    | .gapResolved => some false
    | _ => none

/-- Events that are neither a message nor about a gap that was found or resolved. -/
def Silent (events : List (Event Content)) : Prop := messages events = [] ∧ gapEvents events = []

@[simp] theorem messages_append (first second : List (Event Content)) :
    messages (first ++ second) = messages first ++ messages second :=
  List.filterMap_append

@[simp] theorem gapEvents_append (first second : List (Event Content)) :
    gapEvents (first ++ second) = gapEvents first ++ gapEvents second :=
  List.filterMap_append

/-- The test of `addMessage` emits nothing. -/
theorem silent_isNext (chain : Chain Content) (msg : StreamMessage Content) :
    Silent (chain.isNext msg).2 := ⟨rfl, rfl⟩

/-- The test of `resolveMessages` emits at most an unfillable gap. -/
theorem silent_isNextOrGivenUp (toRef : Option MessageRef) (chain : Chain Content)
    (msg : StreamMessage Content) : Silent (chain.isNextOrGivenUp toRef msg).2 := by
  unfold Chain.isNextOrGivenUp
  split_ifs <;> exact ⟨rfl, rfl⟩

/-- The events about gaps alternate, beginning with `gapFound`, and the last one tells whether a
gap is open. -/
structure Alternates (kinds : List Bool) (isOpen : Bool) : Prop where
  chain : kinds.IsChain (· ≠ ·)
  head : kinds.head? ≠ some false
  last : kinds.getLast? = some true ↔ isOpen = true

/-- A gap is found when none is open, and resolved when one is. -/
theorem Alternates.append {kinds : List Bool} {isOpen : Bool} (hkinds : Alternates kinds isOpen) :
    Alternates (kinds ++ [!isOpen]) (!isOpen) := by
  have hlast : ∀ kind ∈ kinds.getLast?, kind ≠ !isOpen := by
    intro kind hkind heq
    have hopen := hkinds.last
    rw [Option.mem_def.mp hkind, Option.some.injEq] at hopen
    cases isOpen <;> simp_all
  refine ⟨List.IsChain.append hkinds.chain (List.isChain_singleton _) ?_, ?_, by simp⟩
  · intro first hfirst second hsecond
    rw [List.head?_cons, Option.mem_some_iff] at hsecond
    exact hsecond ▸ hlast first hfirst
  · cases kinds with
    | nil =>
      have hclosed : isOpen = false := by
        have hopen := hkinds.last
        simpa using hopen.symm
      simp [hclosed]
    | cons first rest => simpa using hkinds.head

/-! ### The rule of the loop -/

/-- A round of the loop either sends out the end of the gap, which resolves it, or another
message. -/
theorem consume_cases (chain : Chain Content) (events : List (Event Content))
    (next : StreamMessage Content) :
    (∃ gap, chain.currentGap = some gap ∧ gap.toMsg.messageRef = next.messageRef ∧
      chain.consume events next =
        ⟨some next, none, chain.pendingMsgs.pop,
          chain.emitted ++ events ++ [.orderedMessageAdded next] ++ [.gapResolved]⟩) ∨
    ((∀ gap, chain.currentGap = some gap → gap.toMsg.messageRef ≠ next.messageRef) ∧
      chain.consume events next =
        ⟨some next, chain.currentGap, chain.pendingMsgs.pop,
          chain.emitted ++ events ++ [.orderedMessageAdded next]⟩) := by
  unfold Chain.consume Chain.checkGapResolved
  cases hgap : chain.currentGap with
  | none => exact Or.inr ⟨nofun, rfl⟩
  | some gap =>
    by_cases hequal : areEqualRefs next.messageRef gap.toMsg.messageRef = true
    · left
      refine ⟨gap, rfl, (areEqualRefs_iff.mp hequal).symm, ?_⟩
      simp only [hequal, if_true]
    · right
      refine ⟨fun other hother heq ↦ ?_, ?_⟩
      · obtain rfl := Option.some.inj hother
        exact hequal (areEqualRefs_iff.mpr heq.symm)
      · simp only [hequal, Bool.false_eq_true, if_false]

/-- `checkGapFound` opens a gap exactly when messages wait and none is open. -/
theorem checkGapFound_cases (chain : Chain Content) :
    (∃ first rest, chain.pendingMsgs.items = first :: rest ∧ chain.currentGap = none ∧
      chain.checkGapFound =
        { chain with
          currentGap := some ⟨chain.lastOrderedMsg, first⟩
          emitted := chain.emitted ++ [.gapFound ⟨chain.lastOrderedMsg, first⟩] }) ∨
    ((chain.pendingMsgs.items = [] ∨ chain.currentGap ≠ none) ∧ chain.checkGapFound = chain) := by
  unfold Chain.checkGapFound Heap.peek
  cases hitems : chain.pendingMsgs.items with
  | nil => exact Or.inr ⟨Or.inl rfl, rfl⟩
  | cons first rest =>
    cases hgap : chain.currentGap with
    | none => exact Or.inl ⟨first, rest, rfl, rfl, rfl⟩
    | some gap => exact Or.inr ⟨Or.inr nofun, rfl⟩

/-- The rule of the loop: what every round keeps holds when the loop ends, and it ends because
nothing is pending or because the first pending message does not pass the test. -/
theorem consumeLoop_rule
    {isConsumable : Chain Content → StreamMessage Content → Bool × List (Event Content)}
    {property : Chain Content → Prop}
    (hround : ∀ chain next rest events, property chain →
      chain.pendingMsgs.items = next :: rest → isConsumable chain next = (true, events) →
      property (chain.consume events next))
    (chain : Chain Content) (hchain : property chain) :
    ∃ final, property final ∧
      ((final.pendingMsgs.items = [] ∧ chain.consumeLoop isConsumable = final) ∨
        ∃ next rest events, final.pendingMsgs.items = next :: rest ∧
          isConsumable final next = (false, events) ∧
          chain.consumeLoop isConsumable =
            { final with emitted := final.emitted ++ events }) := by
  induction chain using Chain.consumeLoop.induct isConsumable with
  | case1 chain hitems =>
    refine ⟨chain, hchain, Or.inl ⟨hitems, ?_⟩⟩
    rw [Chain.consumeLoop]
    split
    · rfl
    · rename_i hother
      rw [hitems] at hother
      cases hother
  | case2 chain next rest hitems events htest ih =>
    have heq : chain.consumeLoop isConsumable =
        (chain.consume events next).consumeLoop isConsumable := by
      rw [Chain.consumeLoop]
      split
      · rename_i hother
        rw [hitems] at hother
        cases hother
      · rename_i hother
        rw [hitems] at hother
        obtain ⟨rfl, rfl⟩ := List.cons.inj hother
        simp only [htest]
    rw [heq]
    exact ih (hround chain next rest events hchain hitems htest)
  | case3 chain next rest hitems events htest =>
    refine ⟨chain, hchain, Or.inr ⟨next, rest, events, hitems, htest, ?_⟩⟩
    rw [Chain.consumeLoop]
    split
    · rename_i hother
      rw [hitems] at hother
      cases hother
    · rename_i hother
      rw [hitems] at hother
      obtain ⟨rfl, rfl⟩ := List.cons.inj hother
      simp only [htest]

/-! ### The state after any calls -/

/-- The last message, the heap, the gap and the events belong together. -/
structure Invariant (chain : Chain Content) : Prop where
  sorted : chain.pendingMsgs.Sorted StreamMessage.messageRef
  last_eq : chain.lastOrderedMsg = (messages chain.emitted).getLast?
  ascending : (messages chain.emitted).Pairwise
    fun first second ↦ first.messageRef < second.messageRef
  above : ∀ msg ∈ messages chain.emitted, ∀ pending ∈ chain.pendingMsgs.items,
    msg.messageRef < pending.messageRef
  gap_pending : ∀ gap, chain.currentGap = some gap → gap.toMsg ∈ chain.pendingMsgs.items
  alternates : Alternates (gapEvents chain.emitted) chain.currentGap.isSome

/-- The comparison of the heap compares the references. -/
theorem ranks_compareMessages :
    Heap.Ranks (@compareMessages Content) StreamMessage.messageRef :=
  ⟨fun _ _ ↦ MessageRef.compareTo_neg_iff, fun _ _ ↦ MessageRef.compareTo_zero_iff⟩

theorem invariant_create : Invariant (Chain.create : Chain Content) where
  sorted := List.Pairwise.nil
  last_eq := rfl
  ascending := List.Pairwise.nil
  above := nofun
  gap_pending := nofun
  alternates := ⟨List.isChain_nil, nofun, by simp [Chain.create, gapEvents]⟩

/-- Every message that went out is at or below the last one. -/
theorem Invariant.le_last {chain : Chain Content} (hinvariant : Invariant chain)
    {last msg : StreamMessage Content} (hlast : chain.lastOrderedMsg = some last)
    (hmsg : msg ∈ messages chain.emitted) : msg.messageRef ≤ last.messageRef := by
  rw [hinvariant.last_eq, List.getLast?_eq_some_iff] at hlast
  obtain ⟨front, hfront⟩ := hlast
  have hascending := hinvariant.ascending
  rw [hfront, List.mem_append, List.mem_singleton] at hmsg
  rw [hfront, List.pairwise_append] at hascending
  rcases hmsg with hbefore | rfl
  · exact (hascending.2.2 msg hbefore last List.mem_cons_self).le
  · exact le_rfl

/-- What `isStaleMessage` tests. -/
theorem Invariant.isStaleMessage_iff {chain : Chain Content} (hinvariant : Invariant chain)
    {msg : StreamMessage Content} : chain.isStaleMessage msg = true ↔
      (∃ last, (messages chain.emitted).getLast? = some last ∧
        msg.messageRef ≤ last.messageRef) ∨
      ∃ pending ∈ chain.pendingMsgs.items, pending.messageRef = msg.messageRef := by
  rw [Chain.isStaleMessage, Bool.or_eq_true, ← hinvariant.last_eq,
    Heap.contains_iff ranks_compareMessages hinvariant.sorted, Option.any_eq_true]
  simp only [decide_eq_true_eq, MessageRef.compareTo_nonpos_iff]

/-- The invariant when a message that is not stale has been pushed. -/
theorem Invariant.push {chain : Chain Content} (hinvariant : Invariant chain)
    {msg : StreamMessage Content} (hstale : chain.isStaleMessage msg = false) :
    Invariant { chain with pendingMsgs := chain.pendingMsgs.push compareMessages msg } := by
  obtain ⟨hlast, hcontains⟩ := Bool.or_eq_false_iff.mp hstale
  have hmem : ∀ other, other ∈ (chain.pendingMsgs.push compareMessages msg).items ↔
      other = msg ∨ other ∈ chain.pendingMsgs.items := fun other ↦ Heap.mem_push
  refine ⟨Heap.sorted_push ranks_compareMessages hinvariant.sorted hcontains, hinvariant.last_eq,
    hinvariant.ascending, fun sent hsent pending hpending ↦ ?_, fun gap hgap ↦ ?_,
    hinvariant.alternates⟩
  · rcases (hmem pending).mp hpending with rfl | hold
    · cases hdefined : chain.lastOrderedMsg with
      | none =>
        rw [hinvariant.last_eq, List.getLast?_eq_none_iff] at hdefined
        rw [hdefined] at hsent
        cases hsent
      | some last =>
        have hnot : ¬ pending.messageRef ≤ last.messageRef := by
          rw [hdefined, Option.any_some, decide_eq_false_iff_not,
            MessageRef.compareTo_nonpos_iff] at hlast
          exact hlast
        exact (hinvariant.le_last hdefined hsent).trans_lt (not_le.mp hnot)
    · exact hinvariant.above sent hsent pending hold
  · exact (hmem gap.toMsg).mpr (Or.inr (hinvariant.gap_pending gap hgap))

/-- A round of the loop keeps the invariant. -/
theorem Invariant.consume {chain : Chain Content} (hinvariant : Invariant chain)
    {next : StreamMessage Content} {rest : List (StreamMessage Content)}
    {events : List (Event Content)} (hitems : chain.pendingMsgs.items = next :: rest)
    (hsilent : Silent events) : Invariant (chain.consume events next) := by
  have hsorted := hinvariant.sorted
  rw [Heap.Sorted, hitems, List.pairwise_cons] at hsorted
  have hpop : chain.pendingMsgs.pop.items = rest := by rw [Heap.pop, hitems, List.tail_cons]
  have hsent : ∀ tail, messages tail = [] →
      messages (chain.emitted ++ events ++ [.orderedMessageAdded next] ++ tail) =
        messages chain.emitted ++ [next] := by
    intro tail htail
    simp only [messages_append, hsilent.1, htail, List.append_nil]
    rfl
  have hgaps : ∀ tail,
      gapEvents (chain.emitted ++ events ++ [.orderedMessageAdded next] ++ tail) =
        gapEvents chain.emitted ++ gapEvents tail := by
    intro tail
    simp only [gapEvents_append, hsilent.2, List.append_nil]
    exact congrArg (· ++ gapEvents tail) (List.append_nil _)
  have hascending : (messages chain.emitted ++ [next]).Pairwise
      fun first second ↦ first.messageRef < second.messageRef := by
    rw [List.pairwise_append]
    refine ⟨hinvariant.ascending, List.pairwise_singleton _ _, fun msg hmsg other hother ↦ ?_⟩
    rw [List.mem_singleton.mp hother]
    exact hinvariant.above msg hmsg next (hitems ▸ List.mem_cons_self)
  have habove : ∀ msg ∈ messages chain.emitted ++ [next], ∀ pending ∈ rest,
      msg.messageRef < pending.messageRef := by
    intro msg hmsg pending hpending
    rcases List.mem_append.mp hmsg with hold | hnext
    · exact hinvariant.above msg hold pending (hitems ▸ List.mem_cons_of_mem next hpending)
    · rw [List.mem_singleton.mp hnext]
      exact hsorted.1 pending hpending
  rcases consume_cases chain events next with ⟨gap, hgap, -, heq⟩ | ⟨hother, heq⟩
  · have halternates := hinvariant.alternates.append
    rw [hgap] at halternates
    rw [heq]
    refine ⟨?_, ?_, ?_, ?_, nofun, ?_⟩
    · rw [Heap.Sorted, hpop]
      exact hsorted.2
    · rw [hsent _ rfl, List.getLast?_concat]
    · rw [hsent _ rfl]
      exact hascending
    · rw [hsent _ rfl, hpop]
      exact habove
    · rw [hgaps]
      exact halternates
  · have hnil : chain.emitted ++ events ++ [.orderedMessageAdded next] =
        chain.emitted ++ events ++ [.orderedMessageAdded next] ++ [] := (List.append_nil _).symm
    rw [heq, hnil]
    refine ⟨?_, ?_, ?_, ?_, fun gap hgap ↦ ?_, ?_⟩
    · rw [Heap.Sorted, hpop]
      exact hsorted.2
    · rw [hsent _ rfl, List.getLast?_concat]
    · rw [hsent _ rfl]
      exact hascending
    · rw [hsent _ rfl, hpop]
      exact habove
    · have hmem := hinvariant.gap_pending gap hgap
      rw [hitems, List.mem_cons] at hmem
      rw [hpop]
      exact hmem.resolve_left fun hnext ↦ hother gap hgap (congrArg _ hnext)
    · rw [hgaps]
      exact (List.append_nil (gapEvents chain.emitted)).symm ▸ hinvariant.alternates

/-- Opening a gap keeps the invariant. -/
theorem Invariant.checkGapFound {chain : Chain Content} (hinvariant : Invariant chain) :
    Invariant chain.checkGapFound := by
  rcases checkGapFound_cases chain with ⟨first, rest, hitems, hgap, heq⟩ | ⟨-, heq⟩
  · rw [heq]
    have hsent : messages (chain.emitted ++ [.gapFound ⟨chain.lastOrderedMsg, first⟩]) =
        messages chain.emitted := by
      rw [messages_append]
      exact List.append_nil _
    have halternates := hinvariant.alternates.append
    rw [hgap] at halternates
    refine ⟨hinvariant.sorted, ?_, ?_, ?_, fun gap hfound ↦ ?_, ?_⟩
    · rw [hsent]
      exact hinvariant.last_eq
    · rw [hsent]
      exact hinvariant.ascending
    · rw [hsent]
      exact hinvariant.above
    · obtain rfl := Option.some.inj hfound
      rw [hitems]
      exact List.mem_cons_self
    · rw [gapEvents_append]
      exact halternates
  · rw [heq]
    exact hinvariant

/-- After a call: messages wait exactly while a gap is open. -/
structure Rested (chain : Chain Content) : Prop extends Invariant chain where
  gap_open : chain.pendingMsgs.items ≠ [] ↔ chain.currentGap ≠ none

/-- An open gap has a pending message at its end. -/
theorem Invariant.pending_of_gap {chain : Chain Content} (hinvariant : Invariant chain)
    (hgap : chain.currentGap ≠ none) : chain.pendingMsgs.items ≠ [] := by
  obtain ⟨gap, hopen⟩ := Option.ne_none_iff_exists'.mp hgap
  exact List.ne_nil_of_mem (hinvariant.gap_pending gap hopen)

/-- The loop keeps the invariant, when the test emits neither messages nor events about gaps. -/
theorem Invariant.consumeLoop
    {isConsumable : Chain Content → StreamMessage Content → Bool × List (Event Content)}
    (hsilent : ∀ chain msg, Silent (isConsumable chain msg).2) {chain : Chain Content}
    (hinvariant : Invariant chain) : Invariant (chain.consumeLoop isConsumable) := by
  have hquiet : ∀ {before : Chain Content} {next : StreamMessage Content} {consumable : Bool}
      {events : List (Event Content)}, isConsumable before next = (consumable, events) →
      Silent events := by
    intro before next consumable events htest
    have hevents := hsilent before next
    rw [htest] at hevents
    exact hevents
  obtain ⟨final, hfinal, hend⟩ := consumeLoop_rule
    (fun before next rest events hbefore hitems htest ↦
      hbefore.consume hitems (hquiet htest)) chain hinvariant
  rcases hend with ⟨-, heq⟩ | ⟨next, rest, events, -, htest, heq⟩
  · exact heq ▸ hfinal
  · have hsent : messages (final.emitted ++ events) = messages final.emitted := by
      rw [messages_append, (hquiet htest).1, List.append_nil]
    have hgaps : gapEvents (final.emitted ++ events) = gapEvents final.emitted := by
      rw [gapEvents_append, (hquiet htest).2, List.append_nil]
    rw [heq]
    exact ⟨hfinal.sorted, hsent ▸ hfinal.last_eq, hsent ▸ hfinal.ascending, hsent ▸ hfinal.above,
      hfinal.gap_pending, hgaps ▸ hfinal.alternates⟩

/-- A call that ends with the check for a gap. -/
theorem Invariant.rested_checkGapFound {chain : Chain Content} (hinvariant : Invariant chain) :
    Rested chain.checkGapFound := by
  have hafter := hinvariant.checkGapFound
  refine ⟨hafter, fun hpending ↦ ?_, hafter.pending_of_gap⟩
  rcases checkGapFound_cases chain with ⟨first, rest, -, -, heq⟩ | ⟨hnone, heq⟩
  · rw [heq]
    exact nofun
  · rw [heq] at hpending ⊢
    exact hnone.resolve_left hpending

/-- `addMessage` keeps the coupling. -/
theorem Rested.addMessage {chain : Chain Content} (hrested : Rested chain)
    (msg : StreamMessage Content) : Rested (chain.addMessage msg) := by
  unfold Chain.addMessage
  split_ifs with hstale
  · exact hrested
  · exact (Invariant.consumeLoop silent_isNext
      (hrested.push (Bool.eq_false_iff.mpr hstale))).rested_checkGapFound

/-- `resolveMessages` keeps the coupling, when it is told a reference and checks for a gap. -/
theorem Rested.resolveMessages {chain : Chain Content} (hrested : Rested chain)
    (toRef : MessageRef) : Rested (chain.resolveMessages (some toRef) true) :=
  (hrested.consumeLoop (silent_isNextOrGivenUp (some toRef))).rested_checkGapFound

/-- Without a reference every pending message passes the test. -/
theorem items_resolveMessages (chain : Chain Content) :
    (chain.resolveMessages none false).pendingMsgs.items = [] := by
  obtain ⟨final, -, hend⟩ := @consumeLoop_rule Content (Chain.isNextOrGivenUp none)
    (fun _ ↦ True) (fun _ _ _ _ _ _ _ ↦ trivial) chain trivial
  rcases hend with ⟨hitems, heq⟩ | ⟨next, rest, events, -, htest, -⟩
  · change (chain.consumeLoop (Chain.isNextOrGivenUp none)).pendingMsgs.items = []
    rw [heq, hitems]
  · unfold Chain.isNextOrGivenUp at htest
    split_ifs at htest with hnext hgiven
    · cases htest
    · cases htest
    · exact absurd rfl hgiven

/-- `resolveMessages` keeps the coupling, when it gives up all gaps. -/
theorem Rested.resolveAll {chain : Chain Content} (hrested : Rested chain) :
    Rested (chain.resolveMessages none false) := by
  have hafter : Invariant (chain.resolveMessages none false) :=
    hrested.consumeLoop (silent_isNextOrGivenUp none)
  refine ⟨hafter, fun hpending ↦ ?_, hafter.pending_of_gap⟩
  exact absurd (items_resolveMessages chain) hpending

/-! ### No message is lost -/

/-- The message went out or is pending. -/
def Held (chain : Chain Content) (msg : StreamMessage Content) : Prop :=
  msg ∈ messages chain.emitted ∨ msg ∈ chain.pendingMsgs.items

theorem Held.emit {chain : Chain Content} {msg : StreamMessage Content} (hheld : Held chain msg)
    (events : List (Event Content)) :
    Held { chain with emitted := chain.emitted ++ events } msg :=
  hheld.imp (fun hsent ↦ messages_append chain.emitted events ▸ List.mem_append_left _ hsent) id

theorem Held.consume {chain : Chain Content} {msg next : StreamMessage Content}
    {rest : List (StreamMessage Content)} {events : List (Event Content)}
    (hheld : Held chain msg) (hitems : chain.pendingMsgs.items = next :: rest) :
    Held (chain.consume events next) msg := by
  have hpop : chain.pendingMsgs.pop.items = rest := by rw [Heap.pop, hitems, List.tail_cons]
  have hmoved : ∀ tail, msg ∈ messages
      (chain.emitted ++ events ++ [.orderedMessageAdded next] ++ tail) ∨ msg ∈ rest := by
    intro tail
    simp only [messages_append, List.mem_append]
    rcases hheld with hsent | hpending
    · exact Or.inl (Or.inl (Or.inl (Or.inl hsent)))
    · rw [hitems] at hpending
      rcases List.mem_cons.mp hpending with rfl | hrest
      · exact Or.inl (Or.inl (Or.inr List.mem_cons_self))
      · exact Or.inr hrest
  unfold Held
  rcases consume_cases chain events next with ⟨gap, -, -, heq⟩ | ⟨-, heq⟩
  · rw [heq, hpop]
    exact hmoved _
  · rw [heq, hpop]
    exact List.append_nil (chain.emitted ++ events ++ [.orderedMessageAdded next]) ▸ hmoved []

theorem Held.consumePending {chain : Chain Content} {msg : StreamMessage Content}
    (hheld : Held chain msg)
    (isConsumable : Chain Content → StreamMessage Content → Bool × List (Event Content))
    (gapCheckEnabled : Bool) :
    Held (Chain.consumePendingOrderedMessages isConsumable gapCheckEnabled chain) msg := by
  have hloop : Held (chain.consumeLoop isConsumable) msg := by
    obtain ⟨final, hfinal, ⟨-, heq⟩ | ⟨next, rest, events, -, -, heq⟩⟩ :=
      @consumeLoop_rule Content isConsumable (fun chain ↦ Held chain msg)
        (fun _ _ _ _ hbefore hitems _ ↦ hbefore.consume hitems) chain hheld
    · exact heq ▸ hfinal
    · exact heq ▸ hfinal.emit events
  unfold Chain.consumePendingOrderedMessages
  cases gapCheckEnabled with
  | false => exact hloop
  | true =>
    rcases checkGapFound_cases (chain.consumeLoop isConsumable) with
      ⟨first, rest, -, -, heq⟩ | ⟨-, heq⟩
    · simp only [if_true, heq]
      exact hloop.emit _
    · simp only [if_true, heq]
      exact hloop

/-! ### Runs -/

/-- A call of the chain: `addMessage(msg)`, `resolveMessages(to, true)` or
`resolveMessages(undefined, false)`. -/
inductive Call (Content : Type*)
  | addMessage (msg : StreamMessage Content)
  | resolveTo (toRef : MessageRef)
  | resolveAll

/-- One call. -/
def perform (chain : Chain Content) : Call Content → Chain Content
  | .addMessage msg => chain.addMessage msg
  | .resolveTo toRef => chain.resolveMessages (some toRef) true
  | .resolveAll => chain.resolveMessages none false

/-- The chain after a sequence of calls. -/
def performAll (calls : List (Call Content)) : Chain Content := calls.foldl perform Chain.create

theorem Rested.perform {chain : Chain Content} (hrested : Rested chain) (call : Call Content) :
    Rested (perform chain call) := by
  cases call with
  | addMessage msg => exact hrested.addMessage msg
  | resolveTo toRef => exact hrested.resolveMessages toRef
  | resolveAll => exact hrested.resolveAll

/-- A run keeps the coupling. -/
theorem Rested.run {chain : Chain Content} (hrested : Rested chain)
    (calls : List (Call Content)) : Rested (calls.foldl OrderedMessageChain.perform chain) := by
  induction calls generalizing chain with
  | nil => exact hrested
  | cons call calls ih => exact ih (hrested.perform call)

theorem rested_create : Rested (Chain.create : Chain Content) :=
  ⟨invariant_create, by simp [Chain.create]⟩

theorem Held.perform {chain : Chain Content} {msg : StreamMessage Content}
    (hheld : Held chain msg) (call : Call Content) : Held (perform chain call) msg := by
  cases call with
  | addMessage other =>
    simp only [OrderedMessageChain.perform, Chain.addMessage]
    split_ifs with hstale
    · exact hheld
    · have hpushed : Held
          { chain with pendingMsgs := chain.pendingMsgs.push compareMessages other } msg :=
        hheld.imp id fun hpending ↦ Heap.mem_push.mpr (Or.inr hpending)
      exact hpushed.consumePending _ _
  | resolveTo toRef => exact hheld.consumePending _ _
  | resolveAll => exact hheld.consumePending _ _

theorem Held.run {chain : Chain Content} {msg : StreamMessage Content} (hheld : Held chain msg)
    (calls : List (Call Content)) :
    Held (calls.foldl OrderedMessageChain.perform chain) msg := by
  induction calls generalizing chain with
  | nil => exact hheld
  | cons call calls ih => exact ih (hheld.perform call)

/-- A message that is not stale is held after it was added. -/
theorem held_addMessage {chain : Chain Content} {msg : StreamMessage Content}
    (hstale : chain.isStaleMessage msg = false) : Held (chain.addMessage msg) msg := by
  rw [Chain.addMessage, if_neg (Bool.eq_false_iff.mp hstale)]
  exact Held.consumePending (Or.inr (Heap.mem_push.mpr (Or.inl rfl))) _ _

/-- A held message went out once and is not pending, or it is pending and did not go out. -/
theorem Invariant.held_once [DecidableEq Content] {chain : Chain Content}
    (hinvariant : Invariant chain) {msg : StreamMessage Content} (hheld : Held chain msg) :
    ((messages chain.emitted).count msg = 1 ∧ msg ∉ chain.pendingMsgs.items) ∨
      ((messages chain.emitted).count msg = 0 ∧ msg ∈ chain.pendingMsgs.items) := by
  have hnodup : (messages chain.emitted).Nodup :=
    hinvariant.ascending.imp fun hlt heq ↦ hlt.ne (congrArg _ heq)
  have hapart : msg ∈ messages chain.emitted → msg ∉ chain.pendingMsgs.items :=
    fun hsent hpending ↦ lt_irrefl _ (hinvariant.above msg hsent msg hpending)
  by_cases hsent : msg ∈ messages chain.emitted
  · exact Or.inl ⟨List.count_eq_one_of_mem hnodup hsent, hapart hsent⟩
  · exact Or.inr ⟨List.count_eq_zero_of_not_mem hsent, hheld.resolve_left hsent⟩

/-- What holds after any sequence of calls. The messages go out in strictly ascending order of
their references. Every message that was added was stale then (at or below the last message that
had gone out, or with the reference of a pending one), or it went out exactly once, or it is still
pending. The events `gapFound` and `gapResolved` alternate, beginning with `gapFound`. Messages are
pending exactly while a gap is open, and the message at its end is then one of them. -/
theorem ordered_and_accounted [DecidableEq Content] (calls : List (Call Content)) :
    ((messages (performAll calls).emitted).Pairwise
      fun first second ↦ first.messageRef < second.messageRef) ∧
    (∀ before msg after, calls = before ++ Call.addMessage msg :: after →
      (∃ last, (messages (performAll before).emitted).getLast? = some last ∧
        msg.messageRef ≤ last.messageRef) ∨
      (∃ pending ∈ (performAll before).pendingMsgs.items,
        pending.messageRef = msg.messageRef) ∨
      ((messages (performAll calls).emitted).count msg = 1 ∧
        msg ∉ (performAll calls).pendingMsgs.items) ∨
      ((messages (performAll calls).emitted).count msg = 0 ∧
        msg ∈ (performAll calls).pendingMsgs.items)) ∧
    ((gapEvents (performAll calls).emitted).IsChain (· ≠ ·) ∧
      (gapEvents (performAll calls).emitted).head? ≠ some false) ∧
    ((performAll calls).pendingMsgs.items ≠ [] ↔ (performAll calls).currentGap ≠ none) ∧
    ∀ gap, (performAll calls).currentGap = some gap →
      gap.toMsg ∈ (performAll calls).pendingMsgs.items := by
  have hrested : Rested (performAll calls) := rested_create.run calls
  refine ⟨hrested.ascending, fun before msg after hcalls ↦ ?_,
    ⟨hrested.alternates.chain, hrested.alternates.head⟩, hrested.gap_open, hrested.gap_pending⟩
  have hbefore : Rested (performAll before) := rested_create.run before
  by_cases hstale : (performAll before).isStaleMessage msg = true
  · exact (hbefore.isStaleMessage_iff.mp hstale).imp id Or.inl
  · have hheld : Held (performAll calls) msg := by
      rw [performAll, hcalls, List.foldl_append, List.foldl_cons]
      exact (held_addMessage (Bool.eq_false_iff.mpr hstale)).run after
    exact Or.inr (Or.inr (hrested.held_once hheld))

/-! ### Linked messages in any order -/

/-- Messages in ascending order, each of which names the one in front of it. -/
structure Linked (run : List (StreamMessage Content)) : Prop where
  ascending : run.Pairwise fun first second ↦ first.messageRef < second.messageRef
  previous : run.IsChain fun first second ↦ second.prevMsgRef = some first.messageRef

/-- The reference determines a message of the run. -/
theorem Linked.eq_of_messageRef_eq {run : List (StreamMessage Content)} (hlinked : Linked run)
    {first second : StreamMessage Content} (hfirst : first ∈ run) (hsecond : second ∈ run)
    (heq : first.messageRef = second.messageRef) : first = second := by
  have hnodup : (run.map StreamMessage.messageRef).Nodup :=
    List.pairwise_map.mpr (hlinked.ascending.imp fun hlt ↦ hlt.ne)
  exact List.inj_on_of_nodup_map hnodup hfirst hsecond heq

/-- The message behind an initial part names the last message of that part. -/
theorem Linked.prevMsgRef_eq {sent behind : List (StreamMessage Content)}
    {last next : StreamMessage Content} (hlinked : Linked (sent ++ next :: behind))
    (hlast : sent.getLast? = some last) : next.prevMsgRef = some last.messageRef := by
  obtain ⟨front, rfl⟩ := List.getLast?_eq_some_iff.mp hlast
  have hchain := hlinked.previous
  rw [List.append_assoc, List.singleton_append, List.isChain_append_cons_cons] at hchain
  exact hchain.2.1

/-- A message behind an initial part that names the last message of that part is the first one
behind it. -/
theorem Linked.eq_head {sent rest : List (StreamMessage Content)}
    {last next : StreamMessage Content} (hlinked : Linked (sent ++ rest))
    (hlast : sent.getLast? = some last) (hnext : next ∈ rest)
    (hprevious : ∀ ref, next.prevMsgRef = some ref → ref = last.messageRef) :
    ∃ behind, rest = next :: behind := by
  obtain ⟨between, behind, rfl⟩ := List.append_of_mem hnext
  cases hbetween : between.getLast? with
  | none =>
    rw [List.getLast?_eq_none_iff.mp hbetween]
    exact ⟨behind, rfl⟩
  | some middle =>
    have hsplit : (sent ++ between).getLast? = some middle := by
      rw [List.getLast?_append, hbetween, Option.some_or]
    have hnamed : next.prevMsgRef = some middle.messageRef :=
      Linked.prevMsgRef_eq (List.append_assoc sent between _ ▸ hlinked) hsplit
    have hbefore : last.messageRef < middle.messageRef :=
      (List.pairwise_append.mp hlinked.ascending).2.2 last (List.mem_of_getLast? hlast) middle
        (List.mem_append_left _ (List.mem_of_getLast? hbetween))
    exact absurd (hprevious _ hnamed) hbefore.ne'

/-- How far the chain has come: an initial part of the run went out, and what is pending is behind
it. -/
structure Progress (run : List (StreamMessage Content)) (chain : Chain Content) : Prop
    extends Invariant chain where
  started : chain.lastOrderedMsg ≠ none
  split : ∃ rest, run = messages chain.emitted ++ rest ∧
    ∀ pending ∈ chain.pendingMsgs.items, pending ∈ rest

/-- A round of the loop of `addMessage` takes the next message of the run. -/
theorem Progress.consume {run : List (StreamMessage Content)} (hlinked : Linked run)
    {chain : Chain Content} (hprogress : Progress run chain) {next : StreamMessage Content}
    {rest : List (StreamMessage Content)} {events : List (Event Content)}
    (hitems : chain.pendingMsgs.items = next :: rest) (htest : chain.isNext next = (true, events)) :
    Progress run (chain.consume events next) := by
  obtain ⟨hnextTest, rfl⟩ := Prod.mk.inj htest
  have hpop : chain.pendingMsgs.pop.items = rest := by rw [Heap.pop, hitems, List.tail_cons]
  obtain ⟨last, hlast⟩ := Option.ne_none_iff_exists'.mp hprogress.started
  obtain ⟨waiting, hrun, hpending⟩ := hprogress.split
  have hsentLast : (messages chain.emitted).getLast? = some last := by
    rw [← hprogress.last_eq, hlast]
  have hprevious : ∀ ref, next.prevMsgRef = some ref → ref = last.messageRef := by
    intro ref href
    simp only [Chain.isNextOrderedMessage, hlast, href] at hnextTest
    exact areEqualRefs_iff.mp hnextTest
  obtain ⟨behind, rfl⟩ := Linked.eq_head (hrun ▸ hlinked) hsentLast
    (hpending next (hitems ▸ List.mem_cons_self)) hprevious
  have hafter : Invariant (chain.consume [] next) :=
    hprogress.toInvariant.consume hitems ⟨rfl, rfl⟩
  have hsent : messages (chain.consume [] next).emitted = messages chain.emitted ++ [next] ∧
      (chain.consume [] next).lastOrderedMsg = some next := by
    rcases consume_cases chain [] next with ⟨gap, -, -, heq⟩ | ⟨-, heq⟩
    · simp [heq, messages]
    · simp [heq, messages]
  refine ⟨hafter, hsent.2 ▸ nofun, behind, ?_, fun pending hmem ↦ ?_⟩
  · rw [hsent.1, hrun, List.append_assoc, List.singleton_append]
  · rw [Chain.pendingMsgs_consume, hpop] at hmem
    have hbehind := hpending pending (hitems ▸ List.mem_cons_of_mem next hmem)
    have hsorted := hprogress.sorted
    rw [Heap.Sorted, hitems] at hsorted
    refine (List.mem_cons.mp hbehind).resolve_left ?_
    rintro rfl
    exact lt_irrefl _ (List.rel_of_pairwise_cons hsorted hmem)

/-- Where the chain stands after a call: the first message that did not go out yet is not
pending. -/
structure Standing (run : List (StreamMessage Content)) (chain : Chain Content) : Prop
    extends Rested chain where
  started : chain.lastOrderedMsg ≠ none
  split : ∃ rest, run = messages chain.emitted ++ rest ∧
    ∀ pending ∈ chain.pendingMsgs.items, pending ∈ rest.tail

/-- When the loop ends, the first message of the run that did not go out is not pending: it would
be the first one of the heap, and it names the last one that went out. -/
theorem Progress.mem_tail {run : List (StreamMessage Content)} (hlinked : Linked run)
    {chain : Chain Content} (hprogress : Progress run chain)
    (hend : chain.pendingMsgs.items = [] ∨ ∃ next rest events,
      chain.pendingMsgs.items = next :: rest ∧ chain.isNext next = (false, events))
    {rest : List (StreamMessage Content)} (hrun : run = messages chain.emitted ++ rest)
    (hpending : ∀ pending ∈ chain.pendingMsgs.items, pending ∈ rest)
    {pending : StreamMessage Content} (hmem : pending ∈ chain.pendingMsgs.items) :
    pending ∈ rest.tail := by
  obtain ⟨head, others, events, hitems, htest⟩ :=
    hend.resolve_left (List.ne_nil_of_mem hmem)
  obtain ⟨last, hlast⟩ := Option.ne_none_iff_exists'.mp hprogress.started
  cases rest with
  | nil => cases hpending pending hmem
  | cons first behind =>
    refine (List.mem_cons.mp (hpending pending hmem)).resolve_left ?_
    rintro rfl
    have hascending := (List.pairwise_append.mp (hrun ▸ hlinked.ascending)).2.1
    have hsorted := hprogress.sorted
    rw [Heap.Sorted, hitems] at hsorted
    have hhead : head = pending := by
      rcases List.mem_cons.mp (hpending head (hitems ▸ List.mem_cons_self)) with heq | hbehind
      · exact heq
      · rcases List.mem_cons.mp (hitems ▸ hmem) with heq | hother
        · exact heq.symm
        · exact absurd (List.rel_of_pairwise_cons hsorted hother)
            (List.rel_of_pairwise_cons hascending hbehind).asymm
    have hnamed : pending.prevMsgRef = some last.messageRef :=
      Linked.prevMsgRef_eq (hrun ▸ hlinked) (hprogress.last_eq ▸ hlast)
    have hnext : chain.isNextOrderedMessage head = true := by
      rw [hhead]
      simp only [Chain.isNextOrderedMessage, hlast, hnamed]
      exact areEqualRefs_iff.mpr rfl
    rw [Chain.isNext, hnext] at htest
    cases htest

/-- The rest of `addMessage` after the message was pushed. -/
theorem Progress.standing {run : List (StreamMessage Content)} (hlinked : Linked run)
    {chain : Chain Content} (hprogress : Progress run chain) :
    Standing run (Chain.consumePendingOrderedMessages Chain.isNext true chain) := by
  obtain ⟨final, hfinal, hend⟩ := consumeLoop_rule
    (fun before next rest events hbefore hitems htest ↦
      Progress.consume hlinked hbefore hitems htest) chain hprogress
  have hloop : chain.consumeLoop Chain.isNext = final := by
    rcases hend with ⟨-, heq⟩ | ⟨next, rest, events, -, htest, heq⟩
    · exact heq
    · obtain ⟨-, rfl⟩ := Prod.mk.inj htest
      rw [heq, List.append_nil]
  have hstopped : final.pendingMsgs.items = [] ∨ ∃ next rest events,
      final.pendingMsgs.items = next :: rest ∧ final.isNext next = (false, events) := by
    refine hend.imp And.left ?_
    rintro ⟨next, rest, events, hitems, htest, -⟩
    exact ⟨next, rest, events, hitems, htest⟩
  obtain ⟨rest, hrun, hpending⟩ := hfinal.split
  have htail : ∀ pending ∈ final.pendingMsgs.items, pending ∈ rest.tail :=
    fun pending hmem ↦ hfinal.mem_tail hlinked hstopped hrun hpending hmem
  simp only [Chain.consumePendingOrderedMessages, hloop, if_true]
  refine ⟨hfinal.rested_checkGapFound, ?_, rest, ?_⟩
  · rcases checkGapFound_cases final with ⟨_, _, -, -, heq⟩ | ⟨-, heq⟩
    · rw [heq]
      exact hfinal.started
    · rw [heq]
      exact hfinal.started
  · rcases checkGapFound_cases final with ⟨_, _, -, -, heq⟩ | ⟨-, heq⟩
    · rw [heq]
      refine ⟨?_, htail⟩
      rw [messages_append, hrun]
      exact congrArg (· ++ rest) (List.append_nil _).symm
    · rw [heq]
      exact ⟨hrun, htail⟩

/-- A message of the run, or one in front of it, is added: the chain stands in the run again, and a
message of the run is held. -/
theorem Standing.addMessage {older run : List (StreamMessage Content)}
    (hlinked : Linked (older ++ run)) {chain : Chain Content} (hstanding : Standing run chain)
    {msg : StreamMessage Content} (hmem : msg ∈ older ++ run) :
    Standing run (chain.addMessage msg) ∧ (msg ∈ run → Held (chain.addMessage msg) msg) := by
  have hrunLinked : Linked run :=
    ⟨(List.pairwise_append.mp hlinked.ascending).2.1, hlinked.previous.right_of_append⟩
  obtain ⟨rest, hrun, hpending⟩ := hstanding.split
  obtain ⟨last, hlast⟩ := Option.ne_none_iff_exists'.mp hstanding.started
  have hlastSent : last ∈ messages chain.emitted :=
    List.mem_of_getLast? (hstanding.last_eq ▸ hlast)
  have hlater : ∀ other ∈ rest, last.messageRef < other.messageRef :=
    (List.pairwise_append.mp (hrun ▸ hrunLinked.ascending)).2.2 last hlastSent
  by_cases hstale : chain.isStaleMessage msg = true
  · rw [Chain.addMessage, if_pos hstale]
    refine ⟨hstanding, fun hmsg ↦ ?_⟩
    -- A stale message of the rest is above the last one, so one with its reference is pending.
    rcases hstanding.isStaleMessage_iff.mp hstale with ⟨other, hother, hle⟩ | ⟨pending, hat, href⟩
    · rw [← hstanding.last_eq, hlast, Option.some.injEq] at hother
      subst hother
      rw [hrun, List.mem_append] at hmsg
      exact Or.inl (hmsg.resolve_right fun hrest ↦ (hlater msg hrest).not_ge hle)
    · have hpendingRun : pending ∈ run := by
        rw [hrun]
        exact List.mem_append_right _ (List.mem_of_mem_tail (hpending pending hat))
      exact Or.inr (hrunLinked.eq_of_messageRef_eq hpendingRun hmsg href ▸ hat)
  · have hfresh := Bool.eq_false_iff.mpr hstale
    refine ⟨?_, fun _ ↦ held_addMessage hfresh⟩
    have habove : last.messageRef < msg.messageRef := by
      rw [← not_le]
      intro hle
      exact hstale (hstanding.isStaleMessage_iff.mpr
        (Or.inl ⟨last, hstanding.last_eq ▸ hlast, hle⟩))
    have hrest : msg ∈ rest := by
      rw [hrun, List.mem_append, List.mem_append] at hmem
      rcases hmem with holder | hsent | hrest
      · have hbelow := (List.pairwise_append.mp hlinked.ascending).2.2 msg holder last
          (hrun ▸ List.mem_append_left _ hlastSent)
        exact absurd hbelow habove.asymm
      · exact absurd (hstanding.le_last hlast hsent) habove.not_ge
      · exact hrest
    rw [Chain.addMessage, if_neg hstale]
    refine Progress.standing hrunLinked ⟨hstanding.push hfresh, hstanding.started, rest, hrun, ?_⟩
    intro pending hmem
    rcases Heap.mem_push.mp hmem with rfl | hold
    · exact hrest
    · exact List.mem_of_mem_tail (hpending pending hold)

/-- The first message goes out at once. -/
theorem addMessage_create (first : StreamMessage Content) :
    Chain.create.addMessage first = ⟨some first, none, ⟨[]⟩, [.orderedMessageAdded first]⟩ := by
  simp [Chain.addMessage, Chain.create, Chain.isStaleMessage, Heap.contains, Heap.isEmpty,
    Heap.push, Heap.getItemIndex, Chain.consumePendingOrderedMessages, Chain.consumeLoop,
    Chain.isNext, Chain.isNextOrderedMessage, Chain.consume, Chain.checkGapResolved, Heap.pop,
    Chain.checkGapFound, Heap.peek]

/-- The chain stands in the run after its first message. -/
theorem standing_first (first : StreamMessage Content) (newer : List (StreamMessage Content)) :
    Standing (first :: newer) (Chain.create.addMessage first) := by
  refine ⟨rested_create.addMessage first, ?_, newer, ?_⟩
  · rw [addMessage_create]
    exact nofun
  · rw [addMessage_create]
    exact ⟨rfl, nofun⟩

/-- The chain stands in the run after any arrivals, and holds the messages of the run among
them. -/
theorem Standing.run {older run : List (StreamMessage Content)}
    (hlinked : Linked (older ++ run)) {chain : Chain Content} (hstanding : Standing run chain)
    {arrivals : List (StreamMessage Content)} (hmem : ∀ msg ∈ arrivals, msg ∈ older ++ run) :
    Standing run ((arrivals.map Call.addMessage).foldl perform chain) ∧
      ∀ msg ∈ arrivals, msg ∈ run →
        Held ((arrivals.map Call.addMessage).foldl perform chain) msg := by
  induction arrivals generalizing chain with
  | nil => exact ⟨hstanding, nofun⟩
  | cons first arrivals ih =>
    obtain ⟨hfirst, hheld⟩ := hstanding.addMessage hlinked (hmem first List.mem_cons_self)
    obtain ⟨hstands, hlater⟩ := ih hfirst fun msg hmsg ↦ hmem msg (List.mem_cons_of_mem first hmsg)
    refine ⟨hstands, fun msg hmsg hrun ↦ ?_⟩
    rcases List.mem_cons.mp hmsg with rfl | hrest
    · exact (hheld hrun).run (arrivals.map Call.addMessage)
    · exact hlater msg hrest hrun

/-- The order of arrival does not matter. Of a chain of linked messages, let `first` arrive first
and then, in any order and with any repetitions, messages of the chain among which are all that are
newer than `first`. Then `first` and the newer ones go out, in the order of the chain and each one
once, and in the end nothing is pending and no gap is open. -/
theorem arrival_order_irrelevant {older newer arrivals : List (StreamMessage Content)}
    {first : StreamMessage Content}
    (hascending : (older ++ first :: newer).Pairwise
      fun earlier later ↦ earlier.messageRef < later.messageRef)
    (hprevious : (older ++ first :: newer).IsChain
      fun earlier later ↦ later.prevMsgRef = some earlier.messageRef)
    (harrivals : ∀ msg ∈ arrivals, msg ∈ older ++ first :: newer)
    (hcomplete : ∀ msg ∈ newer, msg ∈ arrivals) :
    let chain := performAll ((first :: arrivals).map Call.addMessage)
    messages chain.emitted = first :: newer ∧ chain.pendingMsgs.items = [] ∧
      chain.currentGap = none := by
  intro chain
  obtain ⟨hstanding, hheld⟩ : Standing (first :: newer) chain ∧
      ∀ msg ∈ arrivals, msg ∈ first :: newer → Held chain msg :=
    (standing_first first newer).run ⟨hascending, hprevious⟩ harrivals
  have hsentFirst : Held (Chain.create.addMessage first) first := by
    rw [addMessage_create]
    exact Or.inl List.mem_cons_self
  have hfirstHeld : Held chain first := hsentFirst.run (arrivals.map Call.addMessage)
  obtain ⟨rest, hrun, hpending⟩ := hstanding.split
  have hrest : rest = [] := by
    -- The first message of the rest has arrived, so it went out or is pending; it did neither.
    cases rest with
    | nil => rfl
    | cons missing behind =>
      have hmissing : missing ∈ first :: newer := hrun ▸ List.mem_append_right _ List.mem_cons_self
      have hheldMissing : Held chain missing := by
        rcases List.mem_cons.mp hmissing with rfl | hnewer
        · exact hfirstHeld
        · exact hheld missing (hcomplete missing hnewer) hmissing
      have hparts := (List.pairwise_append.mp hascending).2.1
      rw [hrun, List.pairwise_append] at hparts
      rcases hheldMissing with hsent | hwaiting
      · exact absurd (hparts.2.2 missing hsent missing List.mem_cons_self) (lt_irrefl _)
      · exact absurd (List.rel_of_pairwise_cons hparts.2.1 (hpending missing hwaiting))
          (lt_irrefl _)
  subst hrest
  have hitems : chain.pendingMsgs.items = [] :=
    List.eq_nil_iff_forall_not_mem.mpr fun msg hmsg ↦ by cases hpending msg hmsg
  refine ⟨(hrun.trans (List.append_nil _)).symm, hitems, ?_⟩
  by_contra hgap
  exact hstanding.gap_open.mpr hgap hitems

/-- Of a chain of four messages the second one arrives first, then the fourth, the first, the
second again, the third and the fourth again. -/
theorem arrival_order_irrelevant_late :
    let msg := fun timestamp previous ↦ (⟨⟨timestamp, 0⟩, previous, ()⟩ : StreamMessage Unit)
    let chain := performAll ([msg 2 (some ⟨1, 0⟩), msg 4 (some ⟨3, 0⟩), msg 1 none,
      msg 2 (some ⟨1, 0⟩), msg 3 (some ⟨2, 0⟩), msg 4 (some ⟨3, 0⟩)].map Call.addMessage)
    messages chain.emitted = [msg 2 (some ⟨1, 0⟩), msg 3 (some ⟨2, 0⟩), msg 4 (some ⟨3, 0⟩)] ∧
      chain.pendingMsgs.items = [] ∧ chain.currentGap = none := by
  intro msg
  have hascending : ([msg 1 none] ++ msg 2 (some ⟨1, 0⟩) ::
      [msg 3 (some ⟨2, 0⟩), msg 4 (some ⟨3, 0⟩)]).Pairwise
        fun earlier later ↦ earlier.messageRef < later.messageRef := by decide
  exact arrival_order_irrelevant hascending (by decide) (by decide) (by decide)

end PomboStorageNode.Sdk.OrderedMessageChain
