import RiffDb.CheckedCode

/-!
# Fallible code with a memo table and a ceiling

A function that may fail is called through a table of its earlier results. A program over such calls
is compared with a plain one: it ends in the same error or in a related value, whatever the table
holds, unless it is too much for a ceiling.
-/

namespace MemoTables

open CheckedCode List

variable {κ ν ε α β γ δ : Type}

/-- Results of earlier calls. -/
structure Memo (f : κ → Except ε ν) where
  entries : List (κ × ν)
  faithful : ∀ entry ∈ entries, f entry.1 = .ok entry.2

abbrev Memoised (f : κ → Except ε ν) := StateT (Memo f) (Except ε)

namespace Memo

variable {f : κ → Except ε ν}

def empty (f : κ → Except ε ν) : Memo f := ⟨[], forall_mem_nil _⟩

def insert (memo : Memo f) {key : κ} {value : ν} (called : f key = .ok value) : Memo f :=
  ⟨(key, value) :: memo.entries, forall_mem_cons.mpr ⟨called, memo.faithful⟩⟩

end Memo

/-- The result in the table, or that of a call, which is kept if it is no error. -/
def consult [DecidableEq κ] {f : κ → Except ε ν} (key : κ) : Memoised f ν := fun memo =>
  match memo.entries.find? (·.1 = key) with
  | some entry => .ok (entry.2, memo)
  | none => match called : f key with
    | .error reason => .error reason
    | .ok value => .ok (value, memo.insert called)

/-- A run against what is expected of it. Only a run that is not within its bounds ends at the
ceiling. -/
inductive Follows (ceiling : ε) (within : Prop) (post : α → β → Prop) :
    Except ε α → Except ε β → Prop
  | value {actual : α} {expected : β} : post actual expected →
    Follows ceiling within post (.ok actual) (.ok expected)
  | error (reason : ε) : Follows ceiling within post (.error reason) (.error reason)
  | stopped (expected : Except ε β) : ¬ within →
    Follows ceiling within post (.error ceiling) expected

/-- A program does as expected, whatever its table holds. -/
def Refines {f : κ → Except ε ν} (ceiling : ε) (within : Prop) (post : α → β → Prop)
    (code : Memoised f α) (expected : Except ε β) : Prop :=
  ∀ memo, Follows ceiling within (fun result => post result.1) (code memo) expected

section Rules

variable {ceiling : ε} {within : Prop} {post : α → β → Prop} {last : γ → δ → Prop}

namespace Follows

variable {actual : Except ε α} {expected : Except ε β}

theorem bind {next : α → Except ε γ} {later : β → Except ε δ}
    (first : Follows ceiling within post actual expected)
    (rest :
      ∀ value other, post value other → Follows ceiling within last (next value) (later other)) :
    Follows ceiling within last (actual >>= next) (expected >>= later) := by
  cases first with
  | value related => exact rest _ _ related
  | error reason => exact .error reason
  | stopped _ beyond => exact .stopped _ beyond

theorem weaken {weaker : α → β → Prop} (follows : Follows ceiling within post actual expected)
    (implied : ∀ value other, post value other → weaker value other) :
    Follows ceiling within weaker actual expected := by
  cases follows with
  | value related => exact .value (implied _ _ related)
  | error reason => exact .error reason
  | stopped _ beyond => exact .stopped _ beyond

/-- A check against the ceiling, which a run within its bounds passes. -/
theorem require {condition : Prop} [Decidable condition] {next : PUnit → Except ε α}
    (met : within → condition) (rest : condition → Follows ceiling within post (next ⟨⟩) expected) :
    Follows ceiling within post (CheckedCode.require condition ceiling >>= next) expected := by
  by_cases holds : condition
  · rw [require_pos holds]
    exact rest holds
  · rw [require_neg holds]
    exact .stopped _ fun inside => holds (met inside)

end Follows

namespace Refines

variable {f : κ → Except ε ν} {code : Memoised f α} {expected : Except ε β}

theorem pure {value : α} {other : β} (related : post value other) :
    Refines ceiling within post (Pure.pure value : Memoised f α) (.ok other) :=
  fun _ => .value related

theorem bind {next : α → Memoised f γ} {later : β → Except ε δ}
    (first : Refines ceiling within post code expected)
    (rest :
      ∀ value other, post value other → Refines ceiling within last (next value) (later other)) :
    Refines ceiling within last (code >>= next) (expected >>= later) :=
  fun memo => (first memo).bind fun _ _ related => rest _ _ related _

theorem require {condition : Prop} [Decidable condition] {next : PUnit → Memoised f α}
    (met : within → condition) (rest : condition → Refines ceiling within post (next ⟨⟩) expected) :
    Refines ceiling within post (liftM (CheckedCode.require condition ceiling) >>= next)
      expected := by
  by_cases holds : condition
  · rw [require_pos holds]
    exact rest holds
  · rw [require_neg holds]
    exact fun _ => .stopped _ fun inside => holds (met inside)

/-- One run from a given table. -/
theorem run (refines : Refines ceiling within post code expected) (memo : Memo f) :
    Follows ceiling within post (code.run' memo) expected := by
  have follows := refines memo
  change Follows ceiling within post (Prod.fst <$> code memo) expected
  generalize code memo = result at follows ⊢
  cases follows with
  | value related => exact .value related
  | error reason => exact .error reason
  | stopped _ beyond => exact .stopped _ beyond

/-- A table makes no difference to a call. -/
theorem consult [DecidableEq κ] {key : κ} {expected : Except ε ν}
    (call : Follows ceiling within Eq (f key) expected) :
    Refines ceiling within Eq (MemoTables.consult key : Memoised f ν) expected := by
  intro memo
  rw [MemoTables.consult]
  split
  · next entry found =>
    have isKey : entry.1 = key := by simpa using find?_some found
    rw [← isKey, memo.faithful entry (mem_of_find?_eq_some found)] at call
    cases call with
    | value same => exact .value same
  · split
    · next reason called =>
      rw [called] at call
      cases call with
      | error => exact .error reason
      | stopped _ beyond => exact .stopped _ beyond
    · next value called =>
      rw [called] at call
      cases call with
      | value same => exact .value same

theorem mapM {call : γ → Memoised f α} {result : γ → Except ε α} {items : List γ}
    (each : ∀ item ∈ items, Refines ceiling within Eq (call item) (result item)) :
    Refines ceiling within Eq (items.mapM call) (items.mapM result) := by
  induction items with
  | nil => exact .pure rfl
  | cons item items ih =>
    obtain ⟨isFirst, others⟩ := forall_mem_cons.mp each
    rw [mapM_cons, mapM_cons]
    refine isFirst.bind ?_
    rintro value _ rfl
    refine (ih others).bind ?_
    rintro values _ rfl
    exact .pure rfl

end Refines

end Rules

end MemoTables
