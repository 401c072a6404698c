import Mathlib.Tactic

/-!
# Fallible code as a sequence of checks

A function that returns early on its first failed check is written in the `Except` monad.
The lemmas here take such a function apart from its result: a successful run passed every
check, in order, and a check that fails decides the result.
-/

namespace CheckedCode

universe u v

variable {ε : Type u} {α β : Type v}

/-- Return `reason` unless the condition holds. -/
def require (condition : Prop) [Decidable condition] (reason : ε) : Except ε PUnit.{v + 1} :=
  if condition then .ok ⟨⟩ else .error reason

/-- `ok_or`: an absent value is the given failure. -/
def okOr (value : Option α) (reason : ε) : Except ε α :=
  match value with
  | some found => .ok found
  | none => .error reason

/-- A failure the environment reports at this step, if it reports one. -/
def refuse (reported : Option ε) : Except ε PUnit.{v + 1} :=
  match reported with
  | some reason => .error reason
  | none => .ok ⟨⟩

theorem bind_eq_ok {first : Except ε α} {next : α → Except ε β} {result : β} :
    (first >>= next) = .ok result ↔ ∃ value, first = .ok value ∧ next value = .ok result := by
  cases first with
  | error reason => simp [bind, Except.bind]
  | ok value => simp [bind, Except.bind]

@[simp] theorem ok_bind (value : α) (next : α → Except ε β) :
    ((Except.ok value : Except ε α) >>= next) = next value := rfl

@[simp] theorem error_bind (reason : ε) (next : α → Except ε β) :
    ((Except.error reason : Except ε α) >>= next) = .error reason := rfl

variable {result : PUnit.{v + 1}} {condition : Prop} {reason : ε}

@[simp] theorem require_eq_ok [Decidable condition] : require condition reason = .ok result ↔
    condition := by
  unfold require
  by_cases holds : condition <;> simp [holds]

theorem require_pos [Decidable condition] (holds : condition) :
    (require condition reason : Except ε PUnit.{v + 1}) = .ok ⟨⟩ := if_pos holds

theorem require_neg [Decidable condition] (fails : ¬ condition) :
    (require condition reason : Except ε PUnit.{v + 1}) = .error reason := if_neg fails

@[simp] theorem okOr_eq_ok {value : Option α} {result : α} :
    okOr value reason = .ok result ↔ value = some result := by
  cases value <;> simp [okOr]

@[simp] theorem okOr_some (value : α) (reason : ε) : okOr (some value) reason = .ok value := rfl

@[simp] theorem refuse_eq_ok {reported : Option ε} :
    refuse reported = .ok result ↔ reported = none := by
  cases reported <;> simp [refuse]

@[simp] theorem refuse_none : (refuse none : Except ε PUnit.{v + 1}) = .ok ⟨⟩ := rfl

variable {value : Except ε α}

@[simp] theorem mapError_eq_ok {ε' : Type u} {relabel : ε → ε'} {result : α} :
    value.mapError relabel = .ok result ↔ value = .ok result := by
  cases value <;> simp [Except.mapError]

theorem ok_of_isOk {result : Except ε α} (succeeds : result.isOk = true) :
    ∃ value, result = .ok value := by
  cases result with
  | error reason => cases succeeds
  | ok value => exact ⟨value, rfl⟩

@[simp] theorem map_eq_ok {after : α → β} {result : β} :
    value.map after = .ok result ↔ ∃ inner, value = .ok inner ∧ after inner = result := by
  cases value <;> simp [Except.map]

variable {items : List α}

/-- A loop that stops at its first failure succeeds exactly when every element passes. -/
theorem forM_eq_ok {check : α → Except ε PUnit.{v + 1}} :
    items.forM check = .ok result ↔ ∀ item ∈ items, check item = .ok ⟨⟩ := by
  induction items with
  | nil => simp [List.forM, pure, Except.pure]
  | cons item rest ih =>
    change (check item >>= fun _ => rest.forM check) = .ok result ↔ _
    rw [bind_eq_ok]
    simp only [ih, List.forall_mem_cons]
    exact ⟨fun ⟨_, first, others⟩ => ⟨first, others⟩, fun ⟨first, others⟩ => ⟨⟨⟩, first, others⟩⟩

variable {advance : β → α → Except ε β} {state : β}

/-- A fold that stops at its first failure simulates a plain fold when each of its steps does. -/
theorem foldlM_simulates {γ : Type*} {R : β → γ → Prop}
    {act : γ → α → γ} (simulates : ∀ state shadow item next, R state shadow →
      advance state item = .ok next → R next (act shadow item)) {shadow : γ} (initially :
      R state shadow) {result : β}
    (folded : items.foldlM advance state = .ok result) : R result (items.foldl act shadow) := by
  induction items generalizing state shadow with
  | nil =>
    cases folded
    exact initially
  | cons item rest ih =>
    rw [List.foldlM_cons, bind_eq_ok] at folded
    obtain ⟨next, moved, folded⟩ := folded
    exact ih (simulates state shadow item next initially moved) folded

variable {P : β → List α → Prop}

/-- A fold that stops at its first failure: what each step keeps, the whole fold keeps. -/
theorem foldlM_invariant
    (kept : ∀ state seen item next, P state seen → advance state item = .ok next →
      P next (seen ++ [item])) {seen items : List α} (initially : P state seen) {result : β}
    (folded : items.foldlM advance state = .ok result) : P result (seen ++ items) := by
  simpa [← List.flatMap_def] using foldlM_simulates kept initially folded

/-- A fold succeeds when each of its steps does. -/
theorem foldlM_succeeds
    (steps : ∀ state seen item rest, items = seen ++ item :: rest → P state seen →
      ∃ next, advance state item = .ok next ∧ P next (seen ++ [item])) (initially : P state []) :
    ∃ result, items.foldlM advance state = .ok result ∧ P result items := by
  suffices later : ∀ rest seen state, items = seen ++ rest → P state seen →
      ∃ result, rest.foldlM advance state = .ok result ∧ P result items by
    exact later items [] state rfl initially
  intro rest
  induction rest with
  | nil =>
    intro seen state isItems held
    rw [List.append_nil] at isItems
    exact ⟨state, rfl, isItems ▸ held⟩
  | cons item rest ih =>
    intro seen state isItems held
    obtain ⟨next, moved, heldNext⟩ := steps state seen item rest isItems held
    obtain ⟨result, folded, heldLast⟩ := ih (seen ++ [item]) next (by simpa using isItems) heldNext
    refine ⟨result, ?_, heldLast⟩
    rw [List.foldlM_cons, moved]
    exact folded

variable {convert : α → Except ε β}

/-- A checked map that succeeds on every element is the plain map. -/
theorem mapM_eq_map {image : α → β} (each : ∀ item ∈ items, convert item = .ok (image item)) :
    items.mapM convert = .ok (items.map image) := by
  induction items with
  | nil => rfl
  | cons item rest ih =>
    have others := ih fun other member => each other (List.mem_cons_of_mem item member)
    rw [List.mapM_cons, each item (List.mem_cons_self ..), others]
    rfl

/-- The results of a checked map belong to its elements one by one. -/
theorem mapM_forall₂ {results : List β} (converted : items.mapM convert = .ok results) :
    List.Forall₂ (fun item result => convert item = .ok result) items results := by
  induction items generalizing results with
  | nil =>
    cases converted
    exact .nil
  | cons item rest ih =>
    rw [List.mapM_cons] at converted
    obtain ⟨first, isFirst, converted⟩ := bind_eq_ok.mp converted
    obtain ⟨others, isOthers, converted⟩ := bind_eq_ok.mp converted
    cases converted
    exact .cons isFirst (ih isOthers)

end CheckedCode
