import RiffDb.CheckedCode

/-!
# Wildcard patterns

A pattern is cut into runs of literal text, single scalars and arbitrary text, and compiled to atoms
of one scalar each. The matcher walks over the text once: where an atom fails it goes back to the
last atom for arbitrary text and lets that take one scalar more. Earlier choices are never
revisited, since what follows such an atom can start at any later place if it can start at some
earlier one. -/

namespace WildcardPatterns

open CheckedCode List

inductive LongPatternErrorV1 where
  | patternAtoms
  | invalidEscape

inductive PatternRunV1 where
  | literal (value : List Char)
  | one
  | many

inductive PatternAtomV1 where
  | literal (expected : Char)
  | one
  | many
deriving DecidableEq

/-- The literal that is being read, if any, becomes a run. -/
def endLiteral (runs : List PatternRunV1) (literal : List Char) : List PatternRunV1 :=
  if literal = [] then runs else runs ++ [.literal literal]

def parseRuns (runs : List PatternRunV1) (literal : List Char) :
    List Char → Except LongPatternErrorV1 (List PatternRunV1)
  | [] => .ok (endLiteral runs literal)
  | ['\\'] => .error .invalidEscape
  | '\\' :: escaped :: chars =>
    if escaped = '%' ∨ escaped = '_' ∨ escaped = '\\' then
      parseRuns runs (literal ++ [escaped]) chars
    else .error .invalidEscape
  | '%' :: chars => parseRuns (endLiteral runs literal ++ [.many]) [] chars
  | '_' :: chars => parseRuns (endLiteral runs literal ++ [.one]) [] chars
  | character :: chars => parseRuns runs (literal ++ [character]) chars

def parseWildcardRuns (source : List Char) : Except LongPatternErrorV1 (List PatternRunV1) :=
  parseRuns [] [] source

section Compile

variable (matchedForm : List Char → List Char)

/-- Arbitrary text after arbitrary text is one atom. `matchedForm` is what the profile compares. -/
def pushRun (atoms : List PatternAtomV1) : PatternRunV1 → List PatternAtomV1
  | .literal value => atoms ++ (matchedForm value).map .literal
  | .one => atoms ++ [.one]
  | .many => if atoms.getLast? = some .many then atoms else atoms ++ [.many]

def compileWildcard (wildcardAtoms literalRuns : Nat) (source : List Char) :
    Except LongPatternErrorV1 (List PatternAtomV1) := do
  let runs ← parseWildcardRuns source
  require (runs.length ≤ literalRuns) .patternAtoms
  runs.foldlM (fun atoms run => do
    let grown := pushRun matchedForm atoms run
    require (grown.length ≤ wildcardAtoms) .patternAtoms
    .ok grown) []

end Compile

/-- The atoms and the text that are left. `star` has the atoms behind the last atom for arbitrary
text and the text from where they were last tried. -/
def wildcardLoop : Nat → List PatternAtomV1 → List Char → Option (List PatternAtomV1 × List Char) →
    Option Bool
  | 0, _, _, _ => none
  | _ + 1, atoms, [], _ => some (atoms.dropWhile (· = .many)).isEmpty
  | fuel + 1, atoms, scalar :: value, star =>
    let restart := match star with
      | some (after, _ :: later) => wildcardLoop fuel after later (some (after, later))
      | _ => some false
    match atoms with
    | .literal expected :: rest =>
      if expected = scalar then wildcardLoop fuel rest value star else restart
    | .one :: rest => wildcardLoop fuel rest value star
    | .many :: rest => wildcardLoop fuel rest (scalar :: value) (some (rest, scalar :: value))
    | [] => restart

def wildcardMatches (fuel : Nat) (atoms : List PatternAtomV1) (matched : List Char) : Option Bool :=
  wildcardLoop fuel atoms matched none

/-- The text is split into consecutive pieces, one for each item. -/
def Splits {α : Type} (holds : α → List Char → Prop) (items : List α) (text : List Char) : Prop :=
  ∃ pieces, Forall₂ holds items pieces ∧ pieces.flatten = text

def AtomMatches : PatternAtomV1 → List Char → Prop
  | .literal expected, piece => piece = [expected]
  | .one, piece => piece.length = 1
  | .many, _ => True

def RunMatches (matchedForm : List Char → List Char) : PatternRunV1 → List Char → Prop
  | .literal value, piece => piece = matchedForm value
  | .one, piece => piece.length = 1
  | .many, _ => True

section Splits

variable {α : Type} {holds : α → List Char → Prop} {item : α} {items others : List α}
  {text : List Char}

theorem splits_nil : Splits holds [] text ↔ text = [] := by
  simp [Splits, eq_comm]

theorem splits_cons : Splits holds (item :: items) text ↔
    ∃ piece rest, holds item piece ∧ Splits holds items rest ∧ piece ++ rest = text := by
  constructor
  · rintro ⟨_, split, rfl⟩
    obtain ⟨piece, pieces, here, later, rfl⟩ := forall₂_cons_left_iff.mp split
    exact ⟨piece, pieces.flatten, here, ⟨pieces, later, rfl⟩, rfl⟩
  · rintro ⟨piece, _, here, ⟨pieces, later, rfl⟩, rfl⟩
    exact ⟨piece :: pieces, .cons here later, rfl⟩

theorem splits_append : Splits holds (items ++ others) text ↔
    ∃ front rest, Splits holds items front ∧ Splits holds others rest ∧ front ++ rest = text := by
  induction items generalizing text with
  | nil => simp [splits_nil]
  | cons item items ih =>
    simp only [cons_append, splits_cons, ih]
    constructor
    · rintro ⟨piece, _, here, ⟨front, rest, first, second, rfl⟩, rfl⟩
      exact ⟨piece ++ front, rest, ⟨piece, front, here, first, rfl⟩, second, append_assoc ..⟩
    · rintro ⟨_, rest, ⟨piece, front, here, first, rfl⟩, second, rfl⟩
      exact ⟨piece, front ++ rest, here, ⟨front, rest, first, second, rfl⟩, (append_assoc ..).symm⟩

theorem splits_singleton : Splits holds [item] text ↔ holds item text := by
  simp [splits_cons, splits_nil]

end Splits

section Atoms

variable {atoms rest : List PatternAtomV1} {text value : List Char} {scalar : Char}

theorem splits_literals {literal : List Char} :
    Splits AtomMatches (literal.map .literal) text ↔ text = literal := by
  induction literal generalizing text with
  | nil => exact splits_nil
  | cons first literal ih =>
    simp [splits_cons, ih, AtomMatches, eq_comm]

/-- An atom for arbitrary text takes what the rest does not need. -/
theorem splits_many : Splits AtomMatches (.many :: rest) text ↔
    ∃ later, later <:+ text ∧ Splits AtomMatches rest later := by
  simp only [splits_cons, AtomMatches, true_and]
  constructor
  · rintro ⟨piece, later, split, rfl⟩
    exact ⟨later, suffix_append .., split⟩
  · rintro ⟨later, ⟨piece, whole⟩, split⟩
    exact ⟨piece, later, split, whole⟩

/-- Every atom but the one for arbitrary text takes one scalar. -/
theorem length_of_splits (single : .many ∉ atoms) (split : Splits AtomMatches atoms text) :
    text.length = atoms.length := by
  induction atoms generalizing text with
  | nil => exact congrArg length (splits_nil.mp split)
  | cons atom atoms ih =>
    obtain ⟨piece, later, here, others, rfl⟩ := splits_cons.mp split
    rw [mem_cons, not_or] at single
    have one : piece.length = 1 := by
      cases atom with
      | literal expected => exact congrArg length here
      | one => exact here
      | many => exact absurd rfl single.1
    rw [length_append, ih single.2 others, one, length_cons, Nat.add_comm]

theorem splits_end :
    Splits AtomMatches atoms [] ↔ (atoms.dropWhile (· = .many)).isEmpty = true := by
  induction atoms with
  | nil => simp [splits_nil]
  | cons atom atoms ih =>
    cases atom with
    | literal expected => simp [splits_cons, AtomMatches]
    | one => simp [splits_cons, AtomMatches]
    | many => simpa [splits_many] using ih

variable {matchedForm : List Char → List Char}

theorem splits_pushRun {run : PatternRunV1} :
    Splits AtomMatches (pushRun matchedForm atoms run) text ↔
      ∃ front piece, Splits AtomMatches atoms front ∧ RunMatches matchedForm run piece ∧
        front ++ piece = text := by
  cases run with
  | literal value => simp only [pushRun, splits_append, splits_literals, RunMatches]
  | one => simp only [pushRun, splits_append, splits_singleton, AtomMatches, RunMatches]
  | many =>
    dsimp only [pushRun]
    split
    · next last =>
      obtain ⟨front, rfl⟩ := getLast?_eq_some_iff.mp last
      simp only [splits_append, splits_singleton, AtomMatches, RunMatches, true_and]
      constructor
      · rintro ⟨start, piece, split, rfl⟩
        exact ⟨start, piece, ⟨start, [], split, append_nil _⟩, rfl⟩
      · rintro ⟨_, piece, ⟨start, middle, split, rfl⟩, rfl⟩
        exact ⟨start, middle ++ piece, split, (append_assoc ..).symm⟩
    · simp only [splits_append, splits_singleton, AtomMatches, RunMatches]

theorem splits_compiled {wildcardAtoms literalRuns : Nat} {source : List Char}
    (compiled : compileWildcard matchedForm wildcardAtoms literalRuns source = .ok atoms) :
    ∃ runs, parseWildcardRuns source = .ok runs ∧
      ∀ text, Splits AtomMatches atoms text ↔ Splits (RunMatches matchedForm) runs text := by
  simp only [compileWildcard, bind_eq_ok, require_eq_ok, exists_const] at compiled
  obtain ⟨runs, parsed, _, folded⟩ := compiled
  refine ⟨runs, parsed, ?_⟩
  rw [← nil_append runs]
  refine foldlM_invariant (P := fun atoms runs => ∀ text, Splits AtomMatches atoms text ↔
    Splits (RunMatches matchedForm) runs text) ?_ (fun _ => by rw [splits_nil, splits_nil]) folded
  intro state seen run next same grown text
  simp only [bind_eq_ok, require_eq_ok, exists_const, Except.ok.injEq] at grown
  obtain ⟨_, rfl⟩ := grown
  simp only [splits_pushRun, splits_append, splits_singleton, same]

/-- What going back could still find. -/
def Retries (star : Option (List PatternAtomV1 × List Char)) : Prop :=
  ∃ after scalar later shorter, star = some (after, scalar :: later) ∧ shorter <:+ later ∧
    Splits AtomMatches after shorter

theorem tried_or_retries {after : List PatternAtomV1} {later : List Char} :
    Splits AtomMatches after later ∨ Retries (some (after, later)) ↔
      ∃ shorter, shorter <:+ later ∧ Splits AtomMatches after shorter := by
  cases later with
  | nil => simp [Retries]
  | cons scalar later => simp [Retries, suffix_cons_iff, or_and_right, exists_or]

/-- Since the last restart every atom took one scalar. -/
def Walked (atoms : List PatternAtomV1) (value : List Char)
    (star : Option (List PatternAtomV1 × List Char)) : Prop :=
  ∀ after later, star = some (after, later) → ∃ segment taken, .many ∉ segment ∧
    after = segment ++ atoms ∧ later = taken ++ value ∧ segment.length = taken.length

variable {star : Option (List PatternAtomV1 × List Char)}

/-- Whatever going back finds takes a scalar for each atom walked over, and so leaves a part of the
text that is left now. -/
theorem Walked.retries (walked : Walked atoms value star) (retries : Retries star) :
    value ≠ [] ∧ ∃ shorter, shorter <:+ value ∧ Splits AtomMatches atoms shorter := by
  obtain ⟨after, scalar, later, shorter, rfl, ⟨gone, rfl⟩, split⟩ := retries
  obtain ⟨segment, taken, single, rfl, whole, sized⟩ := walked _ _ rfl
  obtain ⟨front, rest, first, second, rfl⟩ := splits_append.mp split
  have long := length_of_splits single first
  rw [← append_assoc, ← cons_append] at whole
  have counted := congrArg length whole
  simp only [length_append, length_cons] at counted
  refine ⟨?_, rest, ?_, second⟩
  · rintro rfl
    rw [length_nil] at counted
    omega
  · exact suffix_of_suffix_length_le (whole ▸ suffix_append ..)
      (suffix_append taken value) (by omega)

theorem Walked.step {atom : PatternAtomV1} (walked : Walked (atom :: atoms) (scalar :: value) star)
    (single : atom ≠ .many) : Walked atoms value star := by
  intro after later isStar
  obtain ⟨segment, taken, others, rfl, rfl, sized⟩ := walked after later isStar
  exact ⟨segment ++ [atom], taken ++ [scalar],
    by simp [others, single.symm], by simp, by simp, by simp [sized]⟩

theorem walked_restart (after : List PatternAtomV1) (later : List Char) :
    Walked after later (some (after, later)) := by
  rintro _ _ ⟨⟩
  exact ⟨[], [], by simp⟩

/-- With fuel for one walk from each place where an atom for arbitrary text can still be restarted,
the loop answers whether the atoms match what is left or going back finds a match. -/
theorem wildcardLoop_decides {fuel : Nat} (width marks : Nat) (walked : Walked atoms value star)
    (narrow : atoms.length + value.length < width)
    (room : ∀ after later, star = some (after, later) → after.length + later.length < width ∧
      later.length ≤ marks) (fresh : star = none → value.length ≤ marks)
    (enough : marks * width + atoms.length + value.length < fuel) :
    ∃ answer, wildcardLoop fuel atoms value star = some answer ∧
      (answer = true ↔ Splits AtomMatches atoms value ∨ Retries star) := by
  induction fuel generalizing atoms value star marks with
  | zero => cases enough
  | succ fuel ih =>
    cases value with
    | nil =>
      refine ⟨_, rfl, ?_⟩
      rw [splits_end, or_iff_left]
      exact fun retries => (walked.retries retries).1 rfl
    | cons scalar value =>
      -- an atom that takes the scalar
      have stepped {atom : PatternAtomV1} {rest : List PatternAtomV1}
        (isAtoms : atoms = atom :: rest)
          (single : atom ≠ .many) (takes : Splits AtomMatches (atom :: rest) (scalar :: value) ↔
            Splits AtomMatches rest value) :
          ∃ answer, wildcardLoop fuel rest value star = some answer ∧
            (answer = true ↔ Splits AtomMatches atoms (scalar :: value) ∨ Retries star) := by
        subst isAtoms
        simp only [length_cons] at narrow enough fresh
        rw [takes]
        exact ih marks (walked.step single)
          (by omega) room (fun none => by have := fresh none; omega) (by omega)
      -- no atom takes it
      have restarted (stuck : ¬ Splits AtomMatches atoms (scalar :: value)) :
          ∃ answer, (match star with
            | some (after, _ :: later) => wildcardLoop fuel after later (some (after, later))
            | _ => some false) = some answer ∧
            (answer = true ↔ Splits AtomMatches atoms (scalar :: value) ∨ Retries star) := by
        rw [or_iff_right stuck]
        match star, walked, room with
        | none, _, _ => exact ⟨false, rfl, by simp [Retries]⟩
        | some (after, []), walked, _ =>
          obtain ⟨_, taken, _, _, whole, _⟩ := walked after [] rfl
          simp at whole
        | some (after, first :: later), _, room =>
          obtain ⟨wide, marked⟩ := room after (first :: later) rfl
          rw [length_cons] at wide marked
          have spent := Nat.mul_le_mul_right width marked
          rw [Nat.succ_mul] at spent
          obtain ⟨answer, decided, means⟩ := ih later.length (walked_restart after later) (by omega)
            (by rintro _ _ ⟨⟩; exact ⟨by omega, le_rfl⟩) (by rintro ⟨⟩) (by omega)
          refine ⟨answer, decided, means.trans (tried_or_retries.trans ?_)⟩
          simp [Retries]
      match atoms with
      | [] => exact restarted (by simp [splits_nil])
      | .literal expected :: rest =>
        unfold wildcardLoop
        dsimp only
        split
        · next same =>
          subst same
          exact stepped rfl (by simp) (by simp [splits_cons, AtomMatches])
        · next apart => exact restarted (by simp [splits_cons, AtomMatches, apart])
      | .one :: rest =>
          exact stepped rfl (by simp) (by simp [splits_cons, AtomMatches, length_eq_one_iff])
      | .many :: rest =>
        have short : value.length + 1 ≤ marks := by
          cases star with
          | none => exact fresh rfl
          | some star =>
            obtain ⟨_, taken, _, _, whole, _⟩ := walked star.1 star.2 rfl
            have marked := (room star.1 star.2 rfl).2
            rw [whole, length_append, length_cons] at marked
            omega
        have spent := Nat.mul_le_mul_right width short
        simp only [length_cons] at narrow enough
        obtain ⟨answer, decided, means⟩ := ih (value.length + 1)
          (walked_restart rest (scalar :: value))
          (by rw [length_cons]; omega)
            (by rintro _ _ ⟨⟩; exact ⟨by rw [length_cons]; omega, le_rfl⟩)
          (by rintro ⟨⟩) (by rw [length_cons]; omega)
        refine ⟨answer, decided, ?_⟩
        rw [means, tried_or_retries, ← splits_many, or_iff_left_of_imp]
        intro retries
        obtain ⟨shorter, part, split⟩ := (walked.retries retries).2
        obtain ⟨later, inner, others⟩ := splits_many.mp split
        exact splits_many.mpr ⟨later, inner.trans part, others⟩

end Atoms

/-- The matcher of a compiled pattern stops, and answers whether the text can be split into
consecutive pieces that match the runs of the pattern one by one. -/
theorem wildcard_matches_iff (matchedForm : List Char → List Char) (wildcardAtoms literalRuns : Nat)
    (source : List Char) (atoms : List PatternAtomV1)
    (compiled : compileWildcard matchedForm wildcardAtoms literalRuns source = .ok atoms)
    (matched : List Char) :
    ∃ runs answer, parseWildcardRuns source = .ok runs ∧
      (∀ fuel, (matched.length + 1) * (atoms.length + matched.length + 1) ≤ fuel →
        wildcardMatches fuel atoms matched = some answer) ∧
      (answer = true ↔ Splits AtomMatches atoms matched) ∧
      (answer = true ↔ Splits (RunMatches matchedForm) runs matched) := by
  obtain ⟨runs, parsed, same⟩ := splits_compiled compiled
  classical
  refine ⟨runs, decide (Splits AtomMatches atoms matched), parsed, ?_, by simp, by simp [same]⟩
  intro fuel enough
  have unstarted : Walked atoms matched none := by rintro _ _ ⟨⟩
  have fueled :
    matched.length * (atoms.length + matched.length + 1) + atoms.length + matched.length <
      fuel := by
    rw [Nat.succ_mul] at enough
    omega
  obtain ⟨answer, decided, means⟩ := wildcardLoop_decides _ _ unstarted (Nat.lt_succ_self _)
    (by rintro _ _ ⟨⟩) (fun _ => le_rfl) fueled
  rw [wildcardMatches, decided, Option.some.injEq, Bool.eq_iff_iff, means, decide_eq_true_iff]
  simp [Retries]

theorem wildcard_matches_sample : ∃ runs answer, parseWildcardRuns "a%b_".toList = .ok runs ∧
      (∀ fuel, 45 ≤ fuel →
        wildcardMatches fuel [.literal 'a', .many, .literal 'b', .one] "abba".toList =
        some answer) ∧
      (answer = true ↔ Splits AtomMatches [.literal 'a', .many, .literal 'b', .one] "abba".toList) ∧
      (answer = true ↔ Splits (RunMatches id) runs "abba".toList) :=
  wildcard_matches_iff id 8 8 "a%b_".toList [.literal 'a', .many, .literal 'b',
    .one] rfl "abba".toList

end WildcardPatterns
