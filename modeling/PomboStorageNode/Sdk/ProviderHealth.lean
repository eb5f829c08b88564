import PomboStorageNode.Library.OrderedMap
import Mathlib.Data.List.Sort
import Mathlib.Order.Defs.LinearOrder
import Mathlib.Algebra.Order.Ring.Int

/-!
# Health of providers

`ProviderHealth.ts` remembers which providers failed recently. Two failures in a row set a provider
aside, for a time that doubles with each further failure; a success brings it back. `order` puts the
healthy providers first, in random order, and the ones set aside behind them. None is left out
(`order_perm`).
-/

set_option autoImplicit false

namespace PomboStorageNode.Sdk

open Library

/-- `FAILURES_TO_SET_ASIDE`. -/
def failuresToSetAside : ℕ := 2

/-- `FIRST_COOLDOWN`, in milliseconds. -/
def firstCooldown : ℤ := 30 * 1000

/-- `MAX_COOLDOWN`, in milliseconds. -/
def maxCooldown : ℤ := 5 * 60 * 1000

/-- What is known of a provider. -/
structure ProviderState where
  failures : ℕ
  cooldown : ℤ
  asideUntil : ℤ
  deriving DecidableEq

/-- `ProviderHealth`. -/
structure ProviderHealth (Provider : Type*) where
  states : OrderedMap Provider ProviderState

/-! ### Shuffling -/

section Shuffle

variable {Item : Type*}

/-- The exchange of two items. -/
def swap (items : List Item) (i j : ℕ) : List Item :=
  match items[i]?, items[j]? with
  | some first, some second => (items.set i second).set j first
  | _, _ => items

theorem swap_perm (items : List Item) (i j : ℕ) : (swap items i j).Perm items := by
  unfold swap
  cases hfirst : items[i]? with
  | none => exact List.Perm.refl items
  | some first =>
    cases hsecond : items[j]? with
    | none => exact List.Perm.refl items
    | some second =>
      obtain ⟨hi, rfl⟩ := List.getElem?_eq_some_iff.mp hfirst
      obtain ⟨hj, rfl⟩ := List.getElem?_eq_some_iff.mp hsecond
      exact List.set_set_perm hi hj

/-- The loop of `shuffle`, from an index down to one. -/
def shuffleFrom (roll : (i : ℕ) → Fin (i + 1)) : ℕ → List Item → List Item
  | 0, items => items
  | i + 1, items => shuffleFrom roll i (swap items (i + 1) (roll (i + 1)))

/-- `shuffle`, with the index that is drawn for each place. -/
def shuffle (roll : (i : ℕ) → Fin (i + 1)) (items : List Item) : List Item :=
  shuffleFrom roll (items.length - 1) items

theorem shuffleFrom_perm (roll : (i : ℕ) → Fin (i + 1)) (i : ℕ) (items : List Item) :
    (shuffleFrom roll i items).Perm items := by
  induction i generalizing items with
  | zero => exact List.Perm.refl items
  | succ i ih => exact (ih _).trans (swap_perm items _ _)

end Shuffle

namespace ProviderHealth

variable {Provider : Type*} [DecidableEq Provider]

/-- The constructor: nothing is known of any provider. -/
def create (providers : List Provider) : ProviderHealth Provider :=
  ⟨providers.foldl (fun states provider ↦ states.set provider ⟨0, 0, 0⟩) .empty⟩

/-- The time until which a provider is set aside. -/
def asideUntil (health : ProviderHealth Provider) (provider : Provider) : ℤ :=
  ((health.states.get? provider).map ProviderState.asideUntil).getD 0

/-- `order`. -/
def order (health : ProviderHealth Provider) (now : ℤ) (roll : (i : ℕ) → Fin (i + 1))
    (providers : List Provider) : List Provider :=
  let healthy := providers.filter fun provider ↦ health.asideUntil provider ≤ now
  let aside := providers.filter fun provider ↦ now < health.asideUntil provider
  shuffle roll healthy ++
    aside.insertionSort fun first second ↦ health.asideUntil first ≤ health.asideUntil second

/-- A provider that is set aside is asked last, but it is not left out. -/
theorem order_perm (health : ProviderHealth Provider) (now : ℤ) (roll : (i : ℕ) → Fin (i + 1))
    (providers : List Provider) : (health.order now roll providers).Perm providers := by
  have hsplit := List.filter_append_perm
    (fun provider ↦ decide (health.asideUntil provider ≤ now)) providers
  have haside : (providers.filter fun provider ↦ !decide (health.asideUntil provider ≤ now)) =
      providers.filter fun provider ↦ decide (now < health.asideUntil provider) := by
    refine List.filter_congr fun provider _ ↦ ?_
    rw [← decide_not, decide_eq_decide]
    exact not_le
  rw [haside] at hsplit
  exact ((shuffleFrom_perm roll _ _).append (List.perm_insertionSort _ _)).trans hsplit

/-- `recordSuccess`. -/
def recordSuccess (health : ProviderHealth Provider) (provider : Provider) :
    ProviderHealth Provider :=
  match health.states.get? provider with
  | none => health
  | some state =>
    if state.failures = 0 then health else ⟨health.states.set provider ⟨0, 0, 0⟩⟩

/-- `recordFailure`, at the clock value `now`. -/
def recordFailure (health : ProviderHealth Provider) (provider : Provider) (now : ℤ) :
    ProviderHealth Provider :=
  match health.states.get? provider with
  | none => health
  | some state =>
    if now < state.asideUntil then health
    else if failuresToSetAside ≤ state.failures + 1 then
      let cooldown :=
        if state.cooldown = 0 then firstCooldown else min (state.cooldown * 2) maxCooldown
      ⟨health.states.set provider ⟨state.failures + 1, cooldown, now + cooldown⟩⟩
    else ⟨health.states.set provider { state with failures := state.failures + 1 }⟩

/-- The report of a verdict. -/
def record (health : ProviderHealth Provider) (provider : Provider) (answered : Bool) (now : ℤ) :
    ProviderHealth Provider :=
  if answered then health.recordSuccess provider else health.recordFailure provider now

end ProviderHealth

end PomboStorageNode.Sdk
