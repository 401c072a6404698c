import Mathlib.Tactic

/-!
# Programs with a state and errors

A program changes a state also when it ends in an error. What is proved about a program is a
relation between the states before and after it, however it ends, and a condition on the state when
it ends well. Facts that the relation keeps are carried through a program. -/

namespace StatefulCode

variable {σ ε α β : Type}

def Code (σ ε α : Type) := σ → Except ε α × σ

instance : Monad (Code σ ε) where
  pure value := fun state => (.ok value, state)
  bind code next := fun state =>
    match code state with
    | (.ok value, later) => next value later
    | (.error error, later) => (.error error, later)

def fail (error : ε) : Code σ ε α := fun state => (.error error, state)

def fetch (read : σ → α) : Code σ ε α := fun state => (.ok (read state), state)

def change (update : σ → σ) : Code σ ε Unit := fun state => (.ok (), update state)

def ofExcept (result : Except ε α) : Code σ ε α := fun state => (result, state)

/-- The handler sees the state in which the error was raised. -/
def onError (code : Code σ ε α) (handler : ε → Code σ ε α) : Code σ ε α := fun state =>
  match code state with
  | (.ok value, later) => (.ok value, later)
  | (.error error, later) => handler error later

/-- From a state that meets `pre` the program moves along `R`, and a value that it returns meets
`post`. -/
def Safe (R : σ → σ → Prop) (pre : σ → Prop) (code : Code σ ε α) (post : α → σ → Prop) : Prop :=
  ∀ state, pre state →
    R state (code state).2 ∧ ∀ value, (code state).1 = .ok value → post value (code state).2

section Rules

variable {R : σ → σ → Prop} {pre : σ → Prop} {code : Code σ ε α} {post : α → σ → Prop}

theorem Safe.weaken {stronger : σ → Prop} {weaker : α → σ → Prop} (safe : Safe R pre code post)
    (before : ∀ state, stronger state → pre state)
    (after : ∀ value state, post value state → weaker value state) :
      Safe R stronger code weaker := by
  intro state meets
  obtain ⟨moved, ends⟩ := safe state (before state meets)
  exact ⟨moved, fun value isValue => after value _ (ends value isValue)⟩

/-- A fact that the relation keeps holds after the program if it held before. -/
theorem Safe.keep (safe : Safe R pre code post) {fact : σ → Prop}
    (kept : ∀ {state later}, R state later → fact state → fact later) :
    Safe R (fun state => pre state ∧ fact state) code (fun value state => post value state ∧
      fact state) := by
  rintro state ⟨meets, holds⟩
  obtain ⟨moved, ends⟩ := safe state meets
  exact ⟨moved, fun value isValue => ⟨ends value isValue, kept moved holds⟩⟩

/-- A condition that does not depend on the state. -/
theorem Safe.assuming {given : Prop} (safe : given → Safe R pre code post) :
    Safe R (fun state => pre state ∧ given) code post := by
  rintro state ⟨meets, holds⟩
  exact safe holds state meets

/-- Two results about one program. -/
theorem Safe.also {S : σ → σ → Prop} {other : σ → Prop} {more : α → σ → Prop}
    (safe : Safe R pre code post) (further : Safe S other code more) :
    Safe R (fun state => pre state ∧ other state) code (fun value state => post value state ∧
      more value state) := by
  rintro state ⟨meets, holds⟩
  obtain ⟨moved, ends⟩ := safe state meets
  exact ⟨moved, fun value isValue => ⟨ends value isValue, (further state holds).2 value isValue⟩⟩

variable {value : α} {error : ε} {result : Except ε α}

section Returning

variable [Std.Refl R]

theorem Safe.pure (ends : ∀ state, pre state → post value state) :
    Safe R pre (Pure.pure value : Code σ ε α) post := by
  intro state meets
  refine ⟨Std.Refl.refl state, ?_⟩
  rintro _ ⟨⟩
  exact ends state meets

theorem Safe.fail : Safe R pre (StatefulCode.fail error : Code σ ε α) post := by
  intro state _
  refine ⟨Std.Refl.refl state, ?_⟩
  rintro _ ⟨⟩

open StatefulCode

theorem Safe.ofExcept (ends : ∀ value, result = .ok value → ∀ state, pre state → post value state) :
    Safe R pre (ofExcept result : Code σ ε α) post := by
  intro state meets
  exact ⟨Std.Refl.refl state, fun value isValue => ends value isValue state meets⟩

end Returning

theorem Safe.change {update : σ → σ} {post : Unit → σ → Prop}
    (moves : ∀ state, pre state → R state (update state) ∧ post () (update state)) :
    Safe R pre (change update : Code σ ε Unit) post := by
  intro state meets
  refine ⟨(moves state meets).1, ?_⟩
  rintro _ ⟨⟩
  exact (moves state meets).2

variable {next : α → Code σ ε β}
variable {state later : σ}

theorem bind_apply (state : σ) : (code >>= next) state =
    match code state with
    | (.ok value, later) => next value later
    | (.error error, later) => (.error error, later) := rfl

theorem bind_ok (ran : code state = (.ok value, later)) :
    (code >>= next) state = next value later := by
  rw [bind_apply, ran]

theorem bind_error (ran : code state = (.error error, later)) :
    (code >>= next) state = (.error error, later) := by
  rw [bind_apply, ran]

variable {last : β → σ → Prop}

theorem Safe.bind [IsTrans σ R]
    (first : Safe R pre code post) (rest : ∀ value, Safe R (post value) (next value) last) :
    Safe R pre (code >>= next) last := by
  intro state meets
  obtain ⟨moved, ends⟩ := first state meets
  rcases ran : code state with ⟨result, later⟩
  rw [ran] at moved ends
  cases result with
  | error error =>
    rw [bind_error ran]
    refine ⟨moved, ?_⟩
    rintro _ ⟨⟩
  | ok value =>
    rw [bind_ok ran]
    obtain ⟨movedOn, endsOn⟩ := rest value later (ends value rfl)
    exact ⟨trans_of R moved movedOn, endsOn⟩

theorem Safe.bind_fetch {read : σ → α}
    (rest : ∀ value, Safe R (fun state => pre state ∧ read state = value) (next value) last) :
    Safe R pre (fetch read >>= next) last :=
  fun state meets => rest (read state) state ⟨meets, rfl⟩

theorem Safe.bind_ofExcept [Std.Refl R]
    (rest : ∀ value, result = .ok value → Safe R pre (next value) last) :
    Safe R pre (StatefulCode.ofExcept result >>= next) last := by
  cases result with
  | ok value => exact rest value rfl
  | error error => exact Safe.fail

/-- The handler starts from what the relation says about a state in which the program has
stopped. -/
theorem Safe.onError [IsTrans σ R] {handler : ε → Code σ ε α} {raised : σ → Prop}
    (first : Safe R pre code post)
    (stopped : ∀ state later, pre state → R state later → raised later)
    (handles : ∀ error, Safe R raised (handler error) post) :
    Safe R pre (onError code handler) post := by
  intro state meets
  obtain ⟨moved, ends⟩ := first state meets
  unfold StatefulCode.onError
  rcases ran : code state with ⟨result, later⟩
  rw [ran] at moved ends
  cases result with
  | ok value => exact ⟨moved, ends⟩
  | error error =>
    obtain ⟨movedOn, endsOn⟩ := handles error later (stopped state later meets moved)
    exact ⟨trans_of R moved movedOn, endsOn⟩

end Rules

/-- No relation between the states, for what holds when a program ends well. -/
def Anyhow (_ _ : σ) : Prop := True

instance : Std.Refl (@Anyhow σ) := ⟨fun _ => trivial⟩

instance : IsTrans σ Anyhow := ⟨fun _ _ _ _ _ => trivial⟩

end StatefulCode
