import Mathlib.Data.List.Basic
import PomboStorageNode.Library.Delimited
import PomboStorageNode.Library.OrderedMap
import PomboStorageNode.Library.Transition

/-!
# Messages that are processed one after the other in each chain

`MsgChainUtil.ts` has a processor for each message chain. A processor takes the messages of its
chain off a buffer, one at a time, in a loop that waits for each to be processed; a gate is closed
while the loop runs. Processing takes as long as it takes, and fails or not: a call that is under
way is in `calls`, and settles when the events say so.

`InOrder` is what holds of every chain: the messages that were processed, the one that is being
processed and those in the buffer are the messages that were added, in their order.
`ordered_of_reachable` says what follows for the outputs, the errors, the loops and `flush`.
-/

set_option autoImplicit false

namespace PomboStorageNode.Sdk.MsgChainUtil

open Library

/-! ### Chains -/

/-- `UserID`: hexadecimal, so that it has no dash. -/
structure UserID where
  text : List Char
  dash_notMem : '-' ∉ text
  deriving DecidableEq

/-- A message chain. -/
structure Chain where
  publisherId : UserID
  msgChainId : List Char
  deriving DecidableEq

/-- The key of the processor of a chain. -/
def Chain.id (chain : Chain) : List Char := chain.publisherId.text ++ '-' :: chain.msgChainId

/-- Different chains have different processors. -/
theorem Chain.id_injective : Function.Injective Chain.id := by
  rintro ⟨⟨first, hfirst⟩, firstChain⟩ ⟨⟨second, hsecond⟩, secondChain⟩ heq
  have hcount : first.count '-' = second.count '-' := by
    rw [List.count_eq_zero_of_not_mem hfirst, List.count_eq_zero_of_not_mem hsecond]
  obtain ⟨rfl, rfl⟩ := Delimited.append_cons_inj_of_count hcount heq
  rfl

/-- A message, as far as its place in a chain goes. -/
structure Message (Content : Type) where
  chain : Chain
  content : Content

variable {Content Output Error : Type}

/-- The messages of a chain. -/
def ofChain (chain : Chain) (messages : List (Message Content)) : List (Message Content) :=
  messages.filter fun message ↦ message.chain = chain

/-! ### Processors -/

/-- `MsgChainProcessor`. The gate `busy` is open, or closed with a promise that has a number. -/
structure Processor (Content : Type) where
  busy : Option ℕ
  inputBuffer : List (Message Content)

/-- A call of `flush` that is waiting: the gates that were closed, with their promises, and the
messages that had been added. -/
structure Flush (Content : Type) where
  waits : List (List Char × ℕ)
  before : List (Message Content)

/-- `MsgChainUtil`, with the calls of `processMessageFn` that have not settled, what was pushed to
the output buffer and what was reported, each with its message, and the calls of `flush`. The number
of promises, the messages that were added and those that were processed are history. -/
structure State (Content Output Error : Type) where
  processors : OrderedMap (List Char) (Processor Content)
  calls : List (Message Content)
  outputs : List (Message Content × Output)
  errors : List (Message Content × Error)
  flushes : List (Flush Content)
  deferred : ℕ
  added : List (Message Content)
  processed : List (Message Content × Except Error Output)

/-- A new `MsgChainUtil`. -/
def create : State Content Output Error := ⟨.empty, [], [], [], [], 0, [], []⟩

/-- What happens: a message is added; a call of `processMessageFn` settles; `flush` is called; it
resolves. -/
inductive Event (Content Output Error : Type)
  | added (message : Message Content)
  | settled (index : ℕ) (result : Except Error Output)
  | flushed
  | flushResolved (index : ℕ)

namespace State

/-- A processor that has not got a message yet. -/
def newProcessor : Processor Content := ⟨none, []⟩

/-- The loop of a processor, from its condition to the next call of `processMessageFn` or to the
opening of the gate. -/
def loop (state : State Content Output Error) (id : List Char) (processor : Processor Content) :
    State Content Output Error :=
  match processor.inputBuffer with
  | [] => { state with processors := state.processors.set id ⟨none, []⟩ }
  | nextMessage :: rest => { state with
    processors := state.processors.set id ⟨processor.busy, rest⟩
    calls := state.calls ++ [nextMessage] }

/-- `addMessage`. -/
def addMessage (state : State Content Output Error) (message : Message Content) :
    State Content Output Error :=
  let processor := (state.processors.get? message.chain.id).getD newProcessor
  let inputBuffer := processor.inputBuffer ++ [message]
  let after := { state with added := state.added ++ [message] }
  match processor.busy with
  | some promise => { after with
    processors := state.processors.set message.chain.id ⟨some promise, inputBuffer⟩ }
  | none =>
    loop { after with deferred := state.deferred + 1 } message.chain.id
      ⟨some state.deferred, inputBuffer⟩

/-- What the loop does with the result of a call. -/
def record (state : State Content Output Error) (message : Message Content)
    (result : Except Error Output) : State Content Output Error :=
  let after := { state with processed := state.processed ++ [(message, result)] }
  match result with
  | .ok output => { after with outputs := state.outputs ++ [(message, output)] }
  | .error error => { after with errors := state.errors ++ [(message, error)] }

/-- A call of `processMessageFn` settles, and the loop goes on. -/
def settle (state : State Content Output Error) (index : ℕ) (result : Except Error Output) :
    Option (State Content Output Error) :=
  state.calls[index]?.bind fun message ↦
    (state.processors.get? message.chain.id).map fun processor ↦
      loop (record { state with calls := state.calls.eraseIdx index } message result)
        message.chain.id processor

/-- `flush`, up to its wait. -/
def flush (state : State Content Output Error) : State Content Output Error := { state with
  flushes := state.flushes ++ [⟨state.processors.entries.filterMap fun entry ↦
    entry.2.busy.map fun promise ↦ (entry.1, promise), state.added⟩] }

/-- The promise of a closed gate. -/
def pending (state : State Content Output Error) (id : List Char) : Option ℕ :=
  (state.processors.get? id).bind Processor.busy

/-- A promise of a gate is resolved when the gate has been opened since. -/
def isResolved (state : State Content Output Error) (wait : List Char × ℕ) : Bool :=
  state.pending wait.1 ≠ some wait.2

/-- The state after an event, or `none` when it cannot happen. -/
def step (state : State Content Output Error) :
    Event Content Output Error → Option (State Content Output Error)
  | .added message => some (state.addMessage message)
  | .settled index result => state.settle index result
  | .flushed => some state.flush
  | .flushResolved index =>
    state.flushes[index]?.bind fun flush ↦
      if flush.waits.all state.isResolved then
        some { state with flushes := state.flushes.eraseIdx index }
      else none

/-- The messages in the buffer of a chain. -/
def buffered (state : State Content Output Error) (chain : Chain) : List (Message Content) :=
  ((state.processors.get? chain.id).map Processor.inputBuffer).getD []

/-- The messages of a chain that were processed. -/
def done (state : State Content Output Error) (chain : Chain) : List (Message Content) :=
  ofChain chain (state.processed.map Prod.fst)

/-! ### What a loop does -/

section Loop

variable (state : State Content Output Error) (chain : Chain) (processor : Processor Content)

theorem pending_loop_self : (state.loop chain.id processor).pending chain.id =
    if processor.inputBuffer = [] then none else processor.busy := by
  unfold loop
  split
  case _ hempty =>
    rw [if_pos hempty, pending, OrderedMap.get?_set_self]
    rfl
  case _ hcons =>
    rw [if_neg (hcons ▸ List.cons_ne_nil _ _), pending, OrderedMap.get?_set_self]
    rfl

theorem buffered_loop_self : (state.loop chain.id processor).buffered chain =
    processor.inputBuffer.tail := by
  unfold loop
  split
  case _ hempty =>
    rw [hempty, buffered, OrderedMap.get?_set_self]
    rfl
  case _ hcons =>
    rw [hcons, buffered, OrderedMap.get?_set_self]
    rfl

theorem get?_loop_of_ne {id : List Char} (hne : id ≠ chain.id) :
    (state.loop chain.id processor).processors.get? id = state.processors.get? id := by
  unfold loop
  split
  · exact OrderedMap.get?_set_of_ne _ _ hne
  · exact OrderedMap.get?_set_of_ne _ _ hne

theorem calls_loop : (state.loop chain.id processor).calls =
    state.calls ++ processor.inputBuffer.head?.toList := by
  unfold loop
  split
  case _ hempty =>
    rw [hempty]
    exact (List.append_nil _).symm
  case _ hcons =>
    rw [hcons]
    rfl

@[simp] theorem added_loop : (state.loop chain.id processor).added = state.added := by
  unfold loop
  split <;> rfl

@[simp] theorem processed_loop :
    (state.loop chain.id processor).processed = state.processed := by
  unfold loop
  split <;> rfl

@[simp] theorem flushes_loop : (state.loop chain.id processor).flushes = state.flushes := by
  unfold loop
  split <;> rfl

@[simp] theorem outputs_loop : (state.loop chain.id processor).outputs = state.outputs := by
  unfold loop
  split <;> rfl

@[simp] theorem errors_loop : (state.loop chain.id processor).errors = state.errors := by
  unfold loop
  split <;> rfl

end Loop

/-! ### The invariant -/

/-- What a call of `flush` knows of a chain: the messages that had been added before it were
processed, or it waits for the loop that does so. -/
def Covers (state : State Content Output Error) (chain : Chain) (pending : Option ℕ)
    (flush : Flush Content) : Prop :=
  ofChain chain flush.before <+: state.done chain ∨
    ∃ promise, (chain.id, promise) ∈ flush.waits ∧ pending = some promise ∧
      ofChain chain flush.before <+: ofChain chain state.added

/-- A chain is in order: what was processed, what is being processed and what is in the buffer are
what was added; nothing is left when the gate is open, one message is being processed when it is
closed; and the calls of `flush` know. -/
structure InOrder (state : State Content Output Error) (chain : Chain) : Prop where
  order : state.done chain ++ (ofChain chain state.calls ++ state.buffered chain) =
    ofChain chain state.added
  opened : state.pending chain.id = none →
    ofChain chain state.calls = [] ∧ state.buffered chain = []
  closed : ∀ promise, state.pending chain.id = some promise →
    ∃ message, ofChain chain state.calls = [message]
  flushes : ∀ flush ∈ state.flushes, state.Covers chain (state.pending chain.id) flush

/-- A chain to which nothing happens. -/
theorem InOrder.frame {state after : State Content Output Error} {chain : Chain}
    (h : state.InOrder chain) (hdone : after.done chain = state.done chain)
    (hcalls : ofChain chain after.calls = ofChain chain state.calls)
    (hadded : ofChain chain after.added = ofChain chain state.added)
    (hprocessor : after.processors.get? chain.id = state.processors.get? chain.id)
    (hflushes : after.flushes = state.flushes) : after.InOrder chain := by
  have hpending : after.pending chain.id = state.pending chain.id := by
    rw [pending, hprocessor, pending]
  have hbuffered : after.buffered chain = state.buffered chain := by
    rw [buffered, hprocessor, buffered]
  refine ⟨?_, ?_, ?_, ?_⟩
  · rw [hdone, hcalls, hbuffered, hadded]
    exact h.order
  · rw [hpending, hcalls, hbuffered]
    exact h.opened
  · rw [hpending, hcalls]
    exact h.closed
  · rw [hflushes, hpending]
    intro flush hflush
    rw [Covers, hdone, hadded]
    exact h.flushes flush hflush

theorem InOrder.chain_of_mem_buffered {state : State Content Output Error} {chain : Chain}
    (h : state.InOrder chain) {message : Message Content}
    (hmem : message ∈ state.buffered chain) : message.chain = chain := by
  have hadded : message ∈ ofChain chain state.added := by
    rw [← h.order]
    exact List.mem_append_right _ (List.mem_append_right _ hmem)
  exact of_decide_eq_true (List.mem_filter.mp hadded).2

/-- The loop of another chain. -/
theorem InOrder.loop_of_ne {state : State Content Output Error} {chain other : Chain}
    {processor : Processor Content} (h : state.InOrder other) (hne : other ≠ chain)
    (hchain : ∀ message ∈ processor.inputBuffer, message.chain = chain) :
    (state.loop chain.id processor).InOrder other := by
  refine h.frame ?_ ?_ ?_ ?_ ?_
  · rw [done, processed_loop, done]
  · have hnone : ofChain other processor.inputBuffer.head?.toList = [] := by
      refine List.filter_eq_nil_iff.mpr fun message hmem ↦ ?_
      rw [hchain message (List.mem_of_mem_head? (Option.mem_toList.mp hmem)), decide_eq_true_eq]
      exact hne.symm
    rw [calls_loop, ofChain, List.filter_append]
    show ofChain other state.calls ++ ofChain other _ = _
    rw [hnone, List.append_nil]
  · rw [added_loop]
  · exact get?_loop_of_ne _ _ _ fun heq ↦ hne (Chain.id_injective heq)
  · rw [flushes_loop]

/-- A loop between two calls: the messages in its buffer are all that is left of its chain. -/
theorem inOrder_loop {state : State Content Output Error} {chain : Chain}
    {processor : Processor Content} {promise : ℕ} (hbusy : processor.busy = some promise)
    (horder : state.done chain ++ processor.inputBuffer = ofChain chain state.added)
    (hidle : ofChain chain state.calls = [])
    (hflushes : ∀ flush ∈ state.flushes, state.Covers chain (some promise) flush) :
    (state.loop chain.id processor).InOrder chain := by
  have hchain : ofChain chain processor.inputBuffer.head?.toList =
      processor.inputBuffer.head?.toList := by
    refine List.filter_eq_self.mpr fun message hmem ↦ ?_
    have hadded : message ∈ ofChain chain state.added := by
      rw [← horder]
      exact List.mem_append_right _ (List.mem_of_mem_head? (Option.mem_toList.mp hmem))
    exact (List.mem_filter.mp hadded).2
  have hcalls : ofChain chain (state.loop chain.id processor).calls =
      processor.inputBuffer.head?.toList := by
    rw [calls_loop, ofChain, List.filter_append]
    show ofChain chain state.calls ++ ofChain chain _ = _
    rw [hidle, hchain, List.nil_append]
  refine ⟨?_, ?_, ?_, ?_⟩
  · rw [hcalls, buffered_loop_self, done, processed_loop, added_loop, ← horder, ← done]
    congr 1
    cases processor.inputBuffer <;> rfl
  · rw [pending_loop_self, hcalls, buffered_loop_self]
    split_ifs with hempty
    · intro _
      rw [hempty]
      exact ⟨rfl, rfl⟩
    · rw [hbusy]
      exact nofun
  · rw [pending_loop_self, hcalls]
    intro other
    split_ifs with hempty
    · exact nofun
    · intro _
      obtain ⟨message, rest, hcons⟩ := List.exists_cons_of_ne_nil hempty
      exact ⟨message, by rw [hcons]; rfl⟩
  · rw [flushes_loop, pending_loop_self]
    intro flush hflush
    rw [Covers, done, processed_loop, added_loop, ← done]
    rcases hflushes flush hflush with hdone | ⟨other, hwaits, hother, hprefix⟩
    · exact .inl hdone
    · split_ifs with hempty
      · rw [hempty, List.append_nil] at horder
        exact .inl (horder ▸ hprefix)
      · exact .inr ⟨other, hwaits, hbusy.trans hother, hprefix⟩

/-! ### Steps -/

theorem ofChain_concat_self (messages : List (Message Content)) (message : Message Content) :
    ofChain message.chain (messages ++ [message]) =
      ofChain message.chain messages ++ [message] := by
  rw [ofChain, List.filter_append, List.filter_cons_of_pos (by simp)]
  rfl

theorem ofChain_concat_of_ne (messages : List (Message Content)) {message : Message Content}
    {chain : Chain} (hne : chain ≠ message.chain) :
    ofChain chain (messages ++ [message]) = ofChain chain messages := by
  rw [ofChain, List.filter_append, List.filter_cons_of_neg (by simpa using hne.symm)]
  exact List.append_nil _

variable {state after : State Content Output Error}

/-- Nothing is left of a chain whose gate is open. -/
theorem InOrder.done_eq {chain : Chain} (h : state.InOrder chain)
    (hopen : state.pending chain.id = none) : state.done chain = ofChain chain state.added := by
  obtain ⟨hcalls, hbuffered⟩ := h.opened hopen
  rw [← h.order, hcalls, hbuffered, List.append_nil, List.append_nil]

/-- The processor of a chain: a new one when there is none yet. -/
theorem getD_newProcessor (state : State Content Output Error) (chain : Chain) :
    (state.processors.get? chain.id).getD newProcessor =
      ⟨state.pending chain.id, state.buffered chain⟩ := by
  rw [pending, buffered]
  cases state.processors.get? chain.id <;> rfl

theorem inOrder_addMessage (h : ∀ chain, state.InOrder chain) (message : Message Content)
    (chain : Chain) : (state.addMessage message).InOrder chain := by
  have hstate := h message.chain
  unfold addMessage
  rw [getD_newProcessor]
  dsimp only
  split
  case _ promise hpending =>
    rcases eq_or_ne chain message.chain with rfl | hne
    · refine ⟨?_, ?_, ?_, ?_⟩
      · show state.done message.chain ++ (ofChain message.chain state.calls ++
          ((OrderedMap.get? (OrderedMap.set _ _ _) message.chain.id).map
            Processor.inputBuffer).getD []) = ofChain _ (state.added ++ [message])
        rw [OrderedMap.get?_set_self, ofChain_concat_self, ← hstate.order]
        simp only [List.append_assoc]
        rfl
      · show (OrderedMap.get? (OrderedMap.set _ _ _) message.chain.id).bind _ = none → _
        rw [OrderedMap.get?_set_self]
        exact nofun
      · exact fun _ _ ↦ hstate.closed promise hpending
      · intro flush hflush
        rcases hstate.flushes flush hflush with hdone | ⟨other, hwaits, hother, hprefix⟩
        · exact .inl hdone
        · refine .inr ⟨other, hwaits, ?_, ?_⟩
          · show (OrderedMap.get? (OrderedMap.set _ _ _) message.chain.id).bind _ = _
            rw [OrderedMap.get?_set_self, ← hother, hpending]
            rfl
          · show _ <+: ofChain _ (state.added ++ [message])
            rw [ofChain_concat_self]
            exact hprefix.trans (List.prefix_append _ _)
    · refine (h chain).frame rfl rfl (ofChain_concat_of_ne state.added hne) ?_ rfl
      exact OrderedMap.get?_set_of_ne _ _ fun heq ↦ hne (Chain.id_injective heq)
  case _ hpending =>
    have hdone := hstate.done_eq hpending
    obtain ⟨hcalls, hbuffered⟩ := hstate.opened hpending
    rw [hbuffered, List.nil_append]
    rcases eq_or_ne chain message.chain with rfl | hne
    · refine inOrder_loop rfl ?_ hcalls ?_
      · show state.done message.chain ++ [message] = ofChain _ (state.added ++ [message])
        rw [ofChain_concat_self, hdone]
      · intro flush hflush
        rcases hstate.flushes flush hflush with hbefore | ⟨other, _, hother, _⟩
        · exact .inl hbefore
        · rw [hpending] at hother
          cases hother
    · refine InOrder.loop_of_ne ?_ hne fun other hmem ↦ by rw [List.mem_singleton.mp hmem]
      exact (h chain).frame rfl rfl (ofChain_concat_of_ne state.added hne) rfl rfl

/-- A call that settles, and the others. -/
theorem exists_split_calls {calls : List (Message Content)} {index : ℕ} {message : Message Content}
    (hget : calls[index]? = some message) :
    ∃ before behind, calls = before ++ message :: behind ∧
      calls.eraseIdx index = before ++ behind := by
  obtain ⟨hlt, rfl⟩ := List.getElem?_eq_some_iff.mp hget
  refine ⟨calls.take index, calls.drop (index + 1), ?_, List.eraseIdx_eq_take_drop_succ _ _⟩
  rw [← List.drop_eq_getElem_cons hlt, List.take_append_drop]

section Settling

variable {message : Message Content} {result : Except Error Output}

@[simp] theorem processed_record : (state.record message result).processed =
    state.processed ++ [(message, result)] := by
  cases result <;> rfl

@[simp] theorem processors_record :
    (state.record message result).processors = state.processors := by
  cases result <;> rfl

@[simp] theorem calls_record : (state.record message result).calls = state.calls := by
  cases result <;> rfl

@[simp] theorem added_record : (state.record message result).added = state.added := by
  cases result <;> rfl

@[simp] theorem flushes_record : (state.record message result).flushes = state.flushes := by
  cases result <;> rfl

theorem done_record_self : (state.record message result).done message.chain =
    state.done message.chain ++ [message] := by
  rw [done, processed_record, List.map_append]
  exact ofChain_concat_self _ message

theorem done_record_of_ne {chain : Chain} (hne : chain ≠ message.chain) :
    (state.record message result).done chain = state.done chain := by
  rw [done, processed_record, List.map_append]
  exact ofChain_concat_of_ne _ hne

end Settling

theorem inOrder_settle (h : ∀ chain, state.InOrder chain) {index : ℕ}
    {result : Except Error Output} (hsettle : state.settle index result = some after)
    (chain : Chain) : after.InOrder chain := by
  obtain ⟨message, hget, hrest⟩ := Option.bind_eq_some_iff.mp hsettle
  obtain ⟨processor, hprocessor, rfl⟩ := Option.map_eq_some_iff.mp hrest
  obtain ⟨before, behind, hcalls, herase⟩ := exists_split_calls hget
  have hstate := h message.chain
  have hself : ofChain message.chain state.calls =
      ofChain message.chain before ++ message :: ofChain message.chain behind := by
    rw [hcalls, ofChain, List.filter_append, List.filter_cons_of_pos (by simp)]
    rfl
  have hbuffered : state.buffered message.chain = processor.inputBuffer := by
    rw [buffered, hprocessor]
    rfl
  rcases eq_or_ne chain message.chain with rfl | hne
  · obtain ⟨promise, hpending⟩ : ∃ promise, state.pending message.chain.id = some promise := by
      apply Option.ne_none_iff_exists'.mp
      intro hopen
      rw [(hstate.opened hopen).1] at hself
      exact absurd hself.symm (List.append_ne_nil_of_right_ne_nil _ (List.cons_ne_nil _ _))
    obtain ⟨only, honly⟩ := hstate.closed promise hpending
    have hempty : ofChain message.chain before = [] ∧ ofChain message.chain behind = [] := by
      have hlength := congrArg List.length (hself.symm.trans honly)
      rw [List.length_append, List.length_cons, List.length_singleton] at hlength
      exact ⟨List.length_eq_zero_iff.mp (by omega), List.length_eq_zero_iff.mp (by omega)⟩
    have hbusy : processor.busy = some promise := by
      rw [← hpending, pending, hprocessor]
      rfl
    refine inOrder_loop hbusy ?_ ?_ ?_
    · have horder := hstate.order
      rw [hself, hempty.1, hempty.2, hbuffered] at horder
      rw [done_record_self, added_record, ← horder, List.append_assoc]
      rfl
    · rw [calls_record, herase, ofChain, List.filter_append]
      show ofChain message.chain before ++ ofChain message.chain behind = []
      rw [hempty.1, hempty.2, List.append_nil]
    · rw [flushes_record]
      intro flush hflush
      rw [Covers, done_record_self, added_record]
      rcases hstate.flushes flush hflush with hdone | hwaits
      · exact .inl (hdone.trans (List.prefix_append _ _))
      · rw [hpending] at hwaits
        exact .inr hwaits
  · refine InOrder.loop_of_ne ?_ hne fun other hmem ↦
      hstate.chain_of_mem_buffered (hbuffered ▸ hmem)
    refine (h chain).frame (done_record_of_ne hne) ?_ ?_ ?_ flushes_record
    · rw [calls_record, herase, hcalls, ofChain, ofChain, List.filter_append, List.filter_append,
        List.filter_cons_of_neg (by simpa using hne.symm)]
    · rw [added_record]
    · rw [processors_record]

theorem inOrder_flush (h : ∀ chain, state.InOrder chain) (chain : Chain) :
    state.flush.InOrder chain where
  order := (h chain).order
  opened := (h chain).opened
  closed := (h chain).closed
  flushes := by
    intro flush hflush
    rcases List.mem_append.mp hflush with hbefore | hnew
    · exact (h chain).flushes flush hbefore
    · rw [List.mem_singleton.mp hnew]
      rcases hpending : state.pending chain.id with _ | promise
      · refine .inl ?_
        show ofChain chain state.added <+: state.done chain
        exact ⟨[], (List.append_nil _).trans ((h chain).done_eq hpending).symm⟩
      · refine .inr ⟨promise, ?_, hpending, List.prefix_rfl⟩
        obtain ⟨processor, hget, hbusy⟩ := Option.bind_eq_some_iff.mp hpending
        refine List.mem_filterMap.mpr ⟨(chain.id, processor), ?_, ?_⟩
        · exact OrderedMap.get?_eq_some_iff.mp hget
        · rw [hbusy]
          rfl

/-- Every event leaves every chain in order. -/
theorem inOrder_step (h : ∀ chain, state.InOrder chain) {event : Event Content Output Error}
    (hstep : state.step event = some after) (chain : Chain) : after.InOrder chain := by
  cases event with
  | added message =>
    cases hstep
    exact inOrder_addMessage h message chain
  | settled index result => exact inOrder_settle h hstep chain
  | flushed =>
    cases hstep
    exact inOrder_flush h chain
  | flushResolved index =>
    obtain ⟨flush, _, hrest⟩ := Option.bind_eq_some_iff.mp hstep
    split_ifs at hrest
    cases hrest
    refine ⟨(h chain).order, (h chain).opened, (h chain).closed, ?_⟩
    exact fun flush hflush ↦ (h chain).flushes flush (List.mem_of_mem_eraseIdx hflush)

/-! ### Outputs and errors -/

/-- The output for a message that was processed. -/
def succeeded (entry : Message Content × Except Error Output) :
    Option (Message Content × Output) :=
  match entry.2 with
  | .ok output => some (entry.1, output)
  | .error _ => none

/-- The error for a message that was processed. -/
def failed (entry : Message Content × Except Error Output) : Option (Message Content × Error) :=
  match entry.2 with
  | .ok _ => none
  | .error error => some (entry.1, error)

/-- Each message that was processed has either an output or an error. -/
structure Reports (state : State Content Output Error) : Prop where
  outputs_eq : state.outputs = state.processed.filterMap succeeded
  errors_eq : state.errors = state.processed.filterMap failed

theorem Reports.record (h : state.Reports) (message : Message Content)
    (result : Except Error Output) : (state.record message result).Reports where
  outputs_eq := by
    rw [processed_record, List.filterMap_append, ← h.outputs_eq]
    cases result with
    | ok output => rfl
    | error error => exact (List.append_nil _).symm
  errors_eq := by
    rw [processed_record, List.filterMap_append, ← h.errors_eq]
    cases result with
    | ok output => exact (List.append_nil _).symm
    | error error => rfl

theorem Reports.loop (h : state.Reports) (chain : Chain) (processor : Processor Content) :
    (state.loop chain.id processor).Reports where
  outputs_eq := by
    rw [outputs_loop, processed_loop]
    exact h.outputs_eq
  errors_eq := by
    rw [errors_loop, processed_loop]
    exact h.errors_eq

theorem Reports.step (h : state.Reports) {event : Event Content Output Error}
    (hstep : state.step event = some after) : after.Reports := by
  cases event with
  | added message =>
    cases hstep
    unfold addMessage
    dsimp only
    split
    · exact ⟨h.outputs_eq, h.errors_eq⟩
    · apply Reports.loop
      exact ⟨h.outputs_eq, h.errors_eq⟩
  | settled index result =>
    obtain ⟨message, _, hrest⟩ := Option.bind_eq_some_iff.mp hstep
    obtain ⟨processor, _, rfl⟩ := Option.map_eq_some_iff.mp hrest
    apply Reports.loop
    apply Reports.record
    exact ⟨h.outputs_eq, h.errors_eq⟩
  | flushed =>
    cases hstep
    exact ⟨h.outputs_eq, h.errors_eq⟩
  | flushResolved index =>
    obtain ⟨flush, _, hrest⟩ := Option.bind_eq_some_iff.mp hstep
    split_ifs at hrest
    cases hrest
    exact ⟨h.outputs_eq, h.errors_eq⟩

/-! ### Runs -/

/-- The messages of every chain are processed one after the other: at most one at a time; the ones
that were processed are the first ones that were added, in their order, and each of them has its
output or its error; while some are left, one is being processed, and the loop goes on when its call
settles; and `flush` resolves only when all that had been added before it are processed. -/
structure Ordered (state : State Content Output Error) : Prop where
  single : ∀ chain, (ofChain chain state.calls).length ≤ 1
  inOrder : ∀ chain, state.done chain <+: ofChain chain state.added
  outputs : ∀ chain, (state.outputs.filter fun output ↦ output.1.chain = chain) =
    (state.processed.filter fun entry ↦ entry.1.chain = chain).filterMap succeeded
  errors : ∀ chain, (state.errors.filter fun error ↦ error.1.chain = chain) =
    (state.processed.filter fun entry ↦ entry.1.chain = chain).filterMap failed
  busy : ∀ chain, state.done chain ≠ ofChain chain state.added →
    ∃ message ∈ state.calls, message.chain = chain
  settles : ∀ index < state.calls.length, ∀ result, (state.settle index result).isSome = true
  flush : ∀ index after, state.step (.flushResolved index) = some after →
    ∃ flush, state.flushes[index]? = some flush ∧
      ∀ chain, ofChain chain flush.before <+: state.done chain

theorem filter_filterMap_of_fst {Entry : Type} {view : Message Content × Except Error Output →
      Option (Message Content × Entry)}
    (hview : ∀ entry result, view entry = some result → result.1 = entry.1)
    (entries : List (Message Content × Except Error Output)) (chain : Chain) :
    ((entries.filterMap view).filter fun result ↦ result.1.chain = chain) =
      (entries.filter fun entry ↦ entry.1.chain = chain).filterMap view := by
  rw [List.filter_filterMap, List.filterMap_filter]
  apply List.filterMap_congr
  intro entry _
  cases hresult : view entry with
  | none => split_ifs <;> rfl
  | some result =>
    show (if decide (result.1.chain = chain) = true then some result else none) = _
    rw [hview entry result hresult]

theorem ordered (h : ∀ chain, state.InOrder chain) (hreports : state.Reports) :
    state.Ordered where
  single := by
    intro chain
    cases hpending : state.pending chain.id with
    | none =>
      rw [((h chain).opened hpending).1]
      exact Nat.zero_le 1
    | some promise =>
      obtain ⟨message, hcalls⟩ := (h chain).closed promise hpending
      exact Nat.le_of_eq (congrArg List.length hcalls)
  inOrder := by
    intro chain
    rw [← (h chain).order]
    exact List.prefix_append _ _
  outputs := by
    intro chain
    rw [hreports.outputs_eq]
    exact filter_filterMap_of_fst (fun entry result hsome ↦ by
      unfold succeeded at hsome
      split at hsome <;> cases hsome
      rfl) _ chain
  errors := by
    intro chain
    rw [hreports.errors_eq]
    exact filter_filterMap_of_fst (fun entry result hsome ↦ by
      unfold failed at hsome
      split at hsome <;> cases hsome
      rfl) _ chain
  busy := by
    intro chain hleft
    cases hpending : state.pending chain.id with
    | none => exact absurd ((h chain).done_eq hpending) hleft
    | some promise =>
      obtain ⟨message, hcalls⟩ := (h chain).closed promise hpending
      have hmem : message ∈ ofChain chain state.calls := hcalls ▸ List.mem_singleton_self message
      exact ⟨message, List.mem_of_mem_filter hmem, of_decide_eq_true (List.mem_filter.mp hmem).2⟩
  settles := by
    intro index hlt result
    have hmem := List.getElem_mem hlt
    have hprocessor : (state.processors.get? state.calls[index].chain.id).isSome = true := by
      by_contra hnone
      rw [Bool.not_eq_true, Option.isSome_eq_false_iff, Option.isNone_iff_eq_none] at hnone
      have hidle := ((h state.calls[index].chain).opened (by rw [pending, hnone]; rfl)).1
      exact absurd rfl (of_decide_eq_false
        (Bool.not_eq_true _ ▸ List.filter_eq_nil_iff.mp hidle _ hmem))
    rw [settle, List.getElem?_eq_getElem hlt, Option.bind_some, Option.isSome_map]
    exact hprocessor
  flush := by
    intro index after hstep
    obtain ⟨flush, hget, hrest⟩ := Option.bind_eq_some_iff.mp hstep
    split_ifs at hrest with hresolved
    refine ⟨flush, hget, ?_⟩
    intro chain
    rcases (h chain).flushes flush (List.mem_of_getElem? hget) with hdone | ⟨promise, hwaits, hp, _⟩
    · exact hdone
    · have hopened := List.all_eq_true.mp hresolved _ hwaits
      exact absurd hp (of_decide_eq_true hopened)

/-- Every chain is in order in every run. -/
theorem ordered_of_reachable {state : State Content Output Error}
    (hreach : Transition.Reachable step (fun _ _ ↦ True) (· = create) state) : state.Ordered := by
  have horder : ∀ chain, state.InOrder chain := by
    refine hreach.invariant ?_ (fun _ _ _ _ hbefore _ hstep ↦ inOrder_step hbefore hstep)
    rintro state rfl chain
    exact ⟨rfl, fun _ ↦ ⟨rfl, rfl⟩, nofun, nofun⟩
  have hreports : state.Reports := by
    refine hreach.invariant ?_ (fun _ _ _ _ hbefore _ hstep ↦ hbefore.step hstep)
    rintro state rfl
    exact ⟨rfl, rfl⟩
  exact ordered horder hreports

/-- The message of a publisher with a name of one letter. -/
def exampleMessage (name : Char) (hname : '-' ∉ [name]) (content : ℕ) : Message ℕ :=
  ⟨⟨⟨[name], hname⟩, ['m']⟩, content⟩

/-- Three messages of two chains: the second chain overtakes the first one, whose first message
fails. -/
def exampleEvents : List (Event ℕ ℕ String) :=
  [.added (exampleMessage 'a' (by decide) 1), .added (exampleMessage 'a' (by decide) 2), .flushed,
    .added (exampleMessage 'b' (by decide) 3), .settled 1 (.ok 30), .settled 0 (.error "failed"),
    .settled 0 (.ok 20), .flushResolved 0]

theorem ordered_exampleEvents : ∃ state : State ℕ ℕ String,
    state.outputs.map Prod.snd = [30, 20] ∧ state.errors.map Prod.snd = ["failed"] ∧
      state.Ordered := by
  have hreach : Transition.Reachable step (fun _ _ ↦ True) (· = create) (_ : State ℕ ℕ String) :=
    .of_run exampleEvents (fun _ _ _ ↦ trivial) (.start rfl) rfl
  exact ⟨_, rfl, rfl, ordered_of_reachable hreach⟩

end State

end PomboStorageNode.Sdk.MsgChainUtil
