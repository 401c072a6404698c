import Mathlib.Tactic

/-!
# Runs of a deterministic event system

A concurrent component is a total step function on its whole state: an event names the node that
acts and every choice of the environment, and an event that is not enabled leaves the state alone.
Every interleaving is a list of events, and a property of all runs follows from what one step
preserves.
-/

namespace Runs

universe u v

variable {σ : Type u} {ε : Type v} (step : σ → ε → σ)

/-- The state after a list of events. -/
def run (start : σ) (events : List ε) : σ := events.foldl step start

@[simp] theorem run_cons (start : σ) (event : ε) (events : List ε) :
    run step start (event :: events) = run step (step start event) events := rfl

theorem run_append (start : σ) (before after : List ε) :
    run step start (before ++ after) = run step (run step start before) after :=
  List.foldl_append

/-- Every step of the run meets a condition on the state it starts from. -/
def Meets (guard : σ → ε → Prop) : σ → List ε → Prop
  | _, [] => True
  | start, event :: events => guard start event ∧ Meets guard (step start event) events

instance Meets.decidable {guard : σ → ε → Prop} [∀ state event, Decidable (guard state event)] :
    ∀ start events, Decidable (Meets step guard start events)
  | _, [] => .isTrue trivial
  | start, event :: events =>
    have : Decidable (Meets step guard (step start event) events) := Meets.decidable _ _
    inferInstanceAs (Decidable (guard start event ∧ Meets step guard (step start event) events))

variable {step}
variable {P : σ → Prop} {start : σ}

/-- What every step under the condition preserves, every run under the condition preserves. -/
theorem run_invariant_of_meets {guard : σ → ε → Prop}
    (preserved : ∀ state event, P state → guard state event → P (step state event))
    {events : List ε} (initially : P start) (meets : Meets step guard start events) :
    P (run step start events) := by
  induction events generalizing start with
  | nil => exact initially
  | cons event events ih => exact ih (preserved start event initially meets.1) meets.2

/-- What every step preserves, every run preserves. -/
theorem run_invariant (preserved : ∀ state event, P state → P (step state event))
    (initially : P start) (events : List ε) : P (run step start events) := by
  induction events generalizing start with
  | nil => exact initially
  | cons event events ih => exact ih (preserved start event initially)

end Runs
