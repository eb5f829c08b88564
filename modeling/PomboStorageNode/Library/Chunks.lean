import Mathlib.Data.List.Basic

/-!
# Reading items from chunks

A `Reader` takes one item off the front of what has been received, or waits for more. Draining what
has been received takes items off until the reader waits. A reader whose answer more input cannot
change (`Reader.next_append`) reads the same items however its input is cut into chunks
(`Reader.feed_eq_drain`), and reads back the items that a sender writes one after the other
(`Reader.drain_flatten_of_writes`).
-/

set_option autoImplicit false

namespace PomboStorageNode.Library.Chunks

variable {Symbol Item : Type*}

/-- A reader of one item at a time. An item takes at least one symbol, and it is the same item when
more has been received. -/
structure Reader (Symbol Item : Type*) where
  next : List Symbol → Option (Item × List Symbol)
  length_lt : ∀ {received item rest}, next received = some (item, rest) →
    rest.length < received.length
  next_append : ∀ {received item rest}, next received = some (item, rest) → ∀ more,
    next (received ++ more) = some (item, rest ++ more)

namespace Reader

variable (reader : Reader Symbol Item)

/-- The items that can be read, and what is left when the reader waits. -/
def drain (received : List Symbol) : List Item × List Symbol :=
  match _hnext : reader.next received with
  | none => ([], received)
  | some (item, rest) => (item :: (drain rest).1, (drain rest).2)
termination_by received.length
decreasing_by exact reader.length_lt _hnext

/-- One more chunk is received. -/
def feed (state : List Item × List Symbol) (chunk : List Symbol) : List Item × List Symbol :=
  (state.1 ++ (reader.drain (state.2 ++ chunk)).1, (reader.drain (state.2 ++ chunk)).2)

variable {reader} {received rest : List Symbol} {item : Item}

theorem drain_of_none (hnext : reader.next received = none) :
    reader.drain received = ([], received) := by
  rw [drain]
  split
  · rfl
  · rename_i hsome
    rw [hnext] at hsome
    cases hsome

theorem drain_of_some (hnext : reader.next received = some (item, rest)) :
    reader.drain received = (item :: (reader.drain rest).1, (reader.drain rest).2) := by
  rw [drain]
  split
  · rename_i hnone
    rw [hnext] at hnone
    cases hnone
  · rename_i other left hsome
    rw [hnext] at hsome
    obtain ⟨rfl, rfl⟩ := Prod.mk.inj (Option.some.inj hsome)
    rfl

/-- What the reader takes off it does while it can; `motive` is carried along the loop. -/
theorem drain_induction {motive : List Symbol → Prop}
    (waits : ∀ received, reader.next received = none → motive received)
    (reads : ∀ received item rest, reader.next received = some (item, rest) → motive rest →
      motive received) (received : List Symbol) : motive received := by
  induction hlength : received.length using Nat.strongRecOn generalizing received with
  | ind length ih =>
    cases hnext : reader.next received with
    | none => exact waits received hnext
    | some taken =>
      have hlt := reader.length_lt hnext
      exact reads received taken.1 taken.2 hnext (ih taken.2.length (hlength ▸ hlt) taken.2 rfl)

/-- What was left is read together with what comes after it. -/
theorem drain_append (received more : List Symbol) :
    reader.drain (received ++ more) = reader.feed (reader.drain received) more := by
  induction received using reader.drain_induction with
  | waits received hnext =>
    rw [drain_of_none hnext]
    rfl
  | reads received item rest hnext ih =>
    rw [drain_of_some hnext, drain_of_some (reader.next_append hnext more), ih]
    rfl

/-- **Chunking**: after any chunks, the reader has read what it reads from all of them at once. -/
theorem feed_eq_drain (chunks : List (List Symbol)) :
    chunks.foldl reader.feed (reader.drain []) = reader.drain chunks.flatten := by
  suffices hfrom : ∀ received, chunks.foldl reader.feed (reader.drain received) =
      reader.drain (received ++ chunks.flatten) by
    exact hfrom []
  induction chunks with
  | nil =>
    intro received
    rw [List.flatten_nil, List.append_nil, List.foldl_nil]
  | cons chunk chunks ih =>
    intro received
    rw [List.foldl_cons, ← drain_append, ih, List.flatten_cons, List.append_assoc]

/-- Nothing is read from nothing. -/
theorem drain_nil : reader.drain [] = ([], []) := by
  apply drain_of_none
  cases hnext : reader.next [] with
  | none => rfl
  | some taken => exact absurd (reader.length_lt hnext) (Nat.not_lt_zero _)

/-- What was written item by item is read item by item, and nothing is left. -/
theorem drain_flatten_of_writes {write : Item → List Symbol} {items : List Item}
    (hwrites : ∀ item ∈ items, ∀ more, reader.next (write item ++ more) = some (item, more)) :
    reader.drain (items.map write).flatten = (items, []) := by
  induction items with
  | nil => exact drain_nil
  | cons item items ih =>
    rw [List.map_cons, List.flatten_cons,
      drain_of_some (hwrites item List.mem_cons_self _),
      ih fun other hother ↦ hwrites other (List.mem_cons_of_mem item hother)]

end Reader

end PomboStorageNode.Library.Chunks
