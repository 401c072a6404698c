import RiffDb.CheckedCode

/-!
# Methods that update their receiver

A method with early returns that changes its receiver as it goes. What was changed before an
early return stays changed: that a refused call leaves the receiver as it was is a property of
the order of the checks and the updates, and `Keeps` is that property.
-/

namespace Methods

universe u

variable {σ τ ε α β : Type u}

/-- The result of a call, and the receiver after it. -/
def Method (σ ε α : Type u) : Type u := σ → Except ε α × σ

namespace Method

def pure (value : α) : Method σ ε α := fun receiver => (.ok value, receiver)

def bind (method : Method σ ε α) (next : α → Method σ ε β) : Method σ ε β := fun receiver =>
  match method receiver with
  | (.error reason, after) => (.error reason, after)
  | (.ok value, after) => next value after

instance : Monad (Method σ ε) where
  pure := pure
  bind := bind

/-- The receiver as it stands. -/
def current : Method σ ε σ := fun receiver => (.ok receiver, receiver)

/-- A computation that does not touch the receiver. -/
def check (outcome : Except ε α) : Method σ ε α := fun receiver => (outcome, receiver)

def update (change : σ → σ) : Method σ ε PUnit.{u + 1} := fun receiver => (.ok ⟨⟩, change receiver)

/-- Call a method of a part of the receiver. -/
def onPart (part : σ → τ) (store : τ → σ → σ) (method : Method τ ε α) : Method σ ε α :=
  fun receiver =>
    let (outcome, after) := method (part receiver)
    (outcome, store after receiver)

/-- Call a method of a value of one's own, and keep the value only if the call succeeds. -/
def run (method : Method σ ε PUnit.{u + 1}) (receiver : σ) : Except ε σ :=
  match method receiver with
  | (.error reason, _) => .error reason
  | (.ok _, after) => .ok after

end Method

open Method

variable {receiver after : σ}

@[simp] theorem current_bind (next : σ → Method σ ε β) (receiver : σ) :
    (current >>= next) receiver = next receiver receiver := rfl

@[simp] theorem update_bind (change : σ → σ) (next : PUnit.{u + 1} → Method σ ε β) (receiver : σ) :
    (update change >>= next) receiver = next ⟨⟩ (change receiver) := rfl

variable {next : α → Method σ ε β}
variable {outcome : Except ε α} {result : β}

theorem check_bind_eq_ok :
    (check outcome >>= next) receiver = (.ok result, after) ↔
      ∃ value, outcome = .ok value ∧ next value receiver = (.ok result, after) := by
  change Method.bind (check outcome) next receiver = _ ↔ _
  cases outcome with
  | error reason => simp [Method.bind, check]
  | ok value => simp [Method.bind, check]

theorem call_bind_eq_ok {method : Method σ ε α} :
    (method >>= next) receiver = (.ok result, after) ↔
      ∃ value between, method receiver = (.ok value, between) ∧
        next value between = (.ok result, after) := by
  change Method.bind method next receiver = _ ↔ _
  unfold Method.bind
  split
  · next reason between ran => simp [ran]
  · next value between ran => simp [ran]

theorem run_eq_ok {method : Method σ ε PUnit.{u + 1}} :
    run method receiver = .ok after ↔ method receiver = (.ok ⟨⟩, after) := by
  unfold run
  split
  · next reason between ran => simp [ran]
  · next value between ran => simp [ran]

variable {part : σ → τ} {store : τ → σ → σ} {method : Method τ ε α}

theorem onPart_eq_ok {result : α} :
    onPart part store method receiver = (.ok result, after) ↔
      ∃ changed, method (part receiver) = (.ok result, changed) ∧
        store changed receiver = after := by
  unfold onPart
  constructor
  · intro ran
    obtain ⟨outcome, changed⟩ := Prod.mk.inj ran
    exact ⟨(method (part receiver)).2, Prod.ext outcome rfl, changed⟩
  · rintro ⟨changed, ran, rfl⟩
    rw [ran]

/-- A refused call leaves the receiver as it was. -/
def Keeps (method : Method σ ε α) (receiver : σ) : Prop :=
  ∀ reason after, method receiver = (.error reason, after) → after = receiver

theorem keeps_pure (value : α) : Keeps (Pure.pure value : Method σ ε α) receiver := by
  intro reason after ran
  cases ran

theorem keeps_update (change : σ → σ) :
    Keeps (update change : Method σ ε PUnit.{u + 1}) receiver := by
  intro reason after ran
  cases ran

theorem keeps_current_bind {next : σ → Method σ ε β} (rest : Keeps (next receiver) receiver) :
    Keeps (current >>= next) receiver := rest

/-- A check in front of the rest. -/
theorem keeps_check_bind (rest : ∀ value, outcome = .ok value → Keeps (next value) receiver) :
    Keeps (check outcome >>= next) receiver := by
  intro reason after ran
  cases outcome with
  | error failure => exact (Prod.mk.inj ran).2.symm
  | ok value => exact rest value rfl reason after ran

/-- A call that keeps the receiver when it is refused, followed by what cannot be refused. -/
theorem Keeps.bind {method : Method σ ε α} (first : Keeps method receiver)
    (rest : ∀ value between, method receiver = (.ok value, between) →
      ∃ result after, next value between = (.ok result, after)) :
      Keeps (method >>= next) receiver := by
  intro reason after ran
  change Method.bind method next receiver = _ at ran
  unfold Method.bind at ran
  split at ran
  · next failure between refused =>
    obtain ⟨_, rfl⟩ := Prod.mk.inj ran
    exact first failure _ refused
  · next value between accepted =>
    obtain ⟨result, final, succeeded⟩ := rest value between accepted
    rw [succeeded] at ran
    cases ran

theorem Keeps.onPart (restores : store (part receiver) receiver = receiver)
    (keeps : Keeps method (part receiver)) : Keeps (onPart part store method) receiver := by
  intro reason after ran
  obtain ⟨refused, stored⟩ := Prod.mk.inj ran
  have kept := keeps reason (method (part receiver)).2 (Prod.ext refused rfl)
  rw [← stored, kept, restores]

end Methods
