import Mathlib.Tactic

/-!
# Code that draws on a preallocated stock

Some updates may not fail halfway, so everything they could need is set aside before they start.
Such code spends one unit at a time and fails when none is left. `Affords` bounds what it spends:
from at least that much it succeeds, and the bounds of its parts add up.
-/

namespace Budgets

universe u v

variable {ε : Type u} {α β : Type v}

/-- The units left are passed along. -/
def Spending (ε : Type u) (α : Type v) : Type (max u v) := Nat → Except ε (α × Nat)

namespace Spending

def pure (value : α) : Spending ε α := fun stock => .ok (value, stock)

def bind (code : Spending ε α) (next : α → Spending ε β) : Spending ε β := fun stock =>
  match code stock with
  | .error reason => .error reason
  | .ok (value, left) => next value left

instance : Monad (Spending ε) where
  pure := pure
  bind := bind

def fail (reason : ε) : Spending ε α := fun _ => .error reason

/-- Use up one unit. -/
def spend (exhausted : ε) : Spending ε PUnit.{v + 1}
  | 0 => .error exhausted
  | stock + 1 => .ok (⟨⟩, stock)

end Spending

open Spending

/-- With `cost` units in stock the code succeeds, spends at most those, and its result has the
property. -/
def Affords (code : Spending ε α) (cost : Nat) (property : α → Prop) : Prop :=
  ∀ stock, cost ≤ stock →
    ∃ value left, code stock = .ok (value, left) ∧ stock ≤ left + cost ∧ property value

variable {property : α → Prop}

theorem affords_pure {value : α} (holds : property value) :
    Affords (Pure.pure value : Spending ε α) 0 property := by
  intro stock _
  exact ⟨value, stock, rfl, Nat.le_refl _, holds⟩

theorem affords_spend (exhausted : ε) : Affords (spend exhausted) 1 fun _ :
    PUnit.{v + 1} => True := by
  intro stock enough
  cases stock with
  | zero => cases enough
  | succ left => exact ⟨⟨⟩, left, rfl, Nat.le_refl _, trivial⟩

variable {code : Spending ε α} {cost more : Nat}

theorem Affords.bind {next : α → Spending ε β} {total : Nat} {after : β → Prop}
    (first : Affords code cost property)
    (second : ∀ value, property value → Affords (next value) more after)
    (fits : cost + more ≤ total) : Affords (code >>= next) total after := by
  intro stock enough
  obtain ⟨value, left, ran, spent, holds⟩ := first stock (by omega)
  obtain ⟨result, rest, ranNext, spentNext, holdsNext⟩ := second value holds left (by omega)
  refine ⟨result, rest, ?_, by omega, holdsNext⟩
  change Spending.bind code next stock = _
  rw [Spending.bind, ran]
  exact ranNext

theorem Affords.mono {after : α → Prop} (affords : Affords code cost property)
    (cheaper : cost ≤ more) (implies : ∀ value, property value → after value) :
    Affords code more after := by
  intro stock enough
  obtain ⟨value, left, ran, spent, holds⟩ := affords stock (cheaper.trans enough)
  exact ⟨value, left, ran, by omega, implies value holds⟩

end Budgets
