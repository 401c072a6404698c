import RiffDb.CheckedCode

/-!
# Bodies that may return early

A body stops before its end in one of two ways: it fails, or it returns a result. Both are errors of
the underlying monad, told apart by `Exit`; `run` turns the body back into the plain fallible
function.

`Leaves P body` says that every early return of the body satisfies `P`. It is kept by sequencing and
by loops.
-/

namespace EarlyReturn

open CheckedCode

inductive Exit (ε ρ : Type) where
  | fault (reason : ε)
  | returned (result : ρ)

variable {ε ρ α β : Type}

/-- A call whose failure is passed on. -/
def attempt (call : Except ε α) : Except (Exit ε ρ) α := call.mapError .fault

/-- `return` with a result that is itself computed by a call. -/
def leave (result : Except ε ρ) : Except (Exit ε ρ) α :=
  match result with
  | .ok value => .error (.returned value)
  | .error reason => .error (.fault reason)

def run (body : Except (Exit ε ρ) ρ) : Except ε ρ :=
  match body with
  | .ok result => .ok result
  | .error (.returned result) => .ok result
  | .error (.fault reason) => .error reason

theorem run_eq_ok {body : Except (Exit ε ρ) ρ} {result : ρ} :
    run body = .ok result ↔ body = .ok result ∨ body = .error (.returned result) := by
  rcases body with (reason | early) | value <;> simp [run]

variable {call : Except ε α} {value : α}

@[simp] theorem attempt_eq_ok :
    (attempt call : Except (Exit ε ρ) α) = .ok value ↔ call = .ok value := mapError_eq_ok

variable {result : Except ε ρ}

@[simp] theorem leave_ne_ok : (leave result : Except (Exit ε ρ) α) ≠ .ok value := by
  cases result <;> simp [leave]

/-- Every early return of the body satisfies the condition. -/
def Leaves (P : ρ → Prop) (body : Except (Exit ε ρ) α) : Prop :=
  ∀ result, body = .error (.returned result) → P result

section Leaves

variable {P : ρ → Prop}

theorem Leaves.ok (value : α) : Leaves P (.ok value : Except (Exit ε ρ) α) := by
  intro result returned
  cases returned

theorem Leaves.attempt (call : Except ε α) : Leaves P (attempt call) := by
  intro result returned
  cases call <;> cases returned

theorem Leaves.require (condition : Prop) [Decidable condition] (reason : ε) :
    Leaves P (require condition (.fault reason) : Except (Exit ε ρ) Unit) := by
  intro result returned
  by_cases holds : condition
  · rw [require_pos holds] at returned
    cases returned
  · rw [require_neg holds] at returned
    cases returned

theorem Leaves.leave (each : ∀ value, result = .ok value → P value) :
    Leaves P (leave result : Except (Exit ε ρ) α) := by
  intro value returned
  cases result with
  | error reason => cases returned
  | ok value =>
    cases returned
    exact each _ rfl

variable {next : α → Except (Exit ε ρ) β}

theorem Leaves.bind {first : Except (Exit ε ρ) α}
    (early : Leaves P first) (later : ∀ value, first = .ok value → Leaves P (next value)) :
    Leaves P (first >>= next) := by
  intro result returned
  cases first with
  | error exit =>
    cases returned
    exact early _ rfl
  | ok value => exact later value rfl result returned

theorem Leaves.fault (reason : ε) : Leaves P (.error (.fault reason) : Except (Exit ε ρ) α) := by
  intro result returned
  cases returned

/-- A call of another function returns early from nothing but what follows it. -/
theorem Leaves.after (later : ∀ value, Leaves P (next value)) :
    Leaves P (EarlyReturn.attempt call >>= next) :=
  (Leaves.attempt call).bind fun value _ => later value

/-- A loop returns early only from its body. -/
theorem Leaves.foldlM {advance : β → α → Except (Exit ε ρ) β} {items : List α}
    (each : ∀ state, ∀ item ∈ items, Leaves P (advance state item)) (state : β) :
    Leaves P (items.foldlM advance state) := by
  induction items generalizing state with
  | nil => exact Leaves.ok state
  | cons item rest ih =>
    rw [List.foldlM_cons]
    refine (each state item List.mem_cons_self).bind fun next _ => ?_
    exact ih (fun state other member => each state other (List.mem_cons_of_mem item member)) next

end Leaves

end EarlyReturn
