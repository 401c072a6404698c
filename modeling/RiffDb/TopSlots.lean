import Mathlib.Data.List.Basic
import Mathlib.Tactic

/-!
# The largest values seen so far, in a fixed number of slots

One pass over the slots keeps them in descending order of a key and drops the smallest value
when they are full. The slots hold values that were inserted, so whatever stands in slot `i` is
matched by `i + 1` insertions with at least its key.
-/

namespace TopSlots

open List

universe u

variable {α : Type u} (key : α → Nat)

/-- Put a value in its place; what it displaces moves down. -/
def insertTop : List (Option α) → α → List (Option α)
  | [], _ => []
  | none :: rest, incoming => some incoming :: rest
  | some existing :: rest, incoming =>
    if key existing < key incoming then some incoming :: insertTop rest existing
    else some existing :: insertTop rest incoming

/-- Values stand before empty slots, larger keys before smaller ones. -/
def Descending (slots : List (Option α)) : Prop :=
  slots.Pairwise fun upper lower =>
    ∀ small, lower = some small → ∃ large, upper = some large ∧ key small ≤ key large

def values (slots : List (Option α)) : List α := slots.filterMap id

variable {key}

variable {slots : List (Option α)}

theorem mem_insertTop {incoming : α} {slot : Option α}
    (member : slot ∈ insertTop key slots incoming) : slot ∈ slots ∨ slot = some incoming := by
  induction slots generalizing incoming with
  | nil => cases member
  | cons first rest ih =>
    cases first with
    | none =>
      rcases mem_cons.mp member with here | later
      · exact Or.inr here
      · exact Or.inl (mem_cons_of_mem _ later)
    | some existing =>
      unfold insertTop at member
      split at member
      · rcases mem_cons.mp member with here | later
        · exact Or.inr here
        · rcases ih later with old | moved
          · exact Or.inl (mem_cons_of_mem _ old)
          · exact Or.inl (moved ▸ mem_cons_self)
      · rcases mem_cons.mp member with here | later
        · exact Or.inl (here ▸ mem_cons_self)
        · rcases ih later with old | new
          · exact Or.inl (mem_cons_of_mem _ old)
          · exact Or.inr new

theorem descending_replicate (count : Nat) :
    Descending key (List.replicate count (none : Option α)) := by
  apply pairwise_of_forall_mem_list
  intro upper _ lower inside small isSmall
  rw [eq_of_mem_replicate inside] at isSmall
  cases isSmall

theorem Descending.insertTop (descending : Descending key slots)
    (incoming : α) : Descending key (insertTop key slots incoming) := by
  induction slots generalizing incoming with
  | nil => exact descending
  | cons first rest ih =>
    obtain ⟨above, tail⟩ := pairwise_cons.mp descending
    cases first with
    | none =>
      refine pairwise_cons.mpr ⟨?_, tail⟩
      intro slot member small isSmall
      obtain ⟨large, impossible, _⟩ := above slot member small isSmall
      cases impossible
    | some existing =>
      have below : ∀ small, some small ∈ rest → key small ≤ key existing := by
        intro small member
        obtain ⟨large, same, order⟩ := above (some small) member small rfl
        cases same
        exact order
      unfold TopSlots.insertTop
      split
      · next larger =>
        refine pairwise_cons.mpr ⟨?_, ih tail existing⟩
        rintro slot member small rfl
        refine ⟨incoming, rfl, ?_⟩
        rcases mem_insertTop member with old | moved
        · exact (below small old).trans larger.le
        · cases moved
          exact larger.le
      · next notLarger =>
        refine pairwise_cons.mpr ⟨?_, ih tail incoming⟩
        rintro slot member small rfl
        refine ⟨existing, rfl, ?_⟩
        rcases mem_insertTop member with old | new
        · exact below small old
        · cases new
          exact Nat.le_of_not_lt notLarger

theorem countP_values_cons (meets : α → Bool) (first : Option α) (rest : List (Option α)) :
    (values (first :: rest)).countP meets =
      (values rest).countP meets + if first.any meets = true then 1 else 0 := by
  cases first with
  | none => rfl
  | some value => exact countP_cons

section Counting

variable {meets : α → Bool} (rising :
  ∀ low high, key low ≤ key high → meets low = true → meets high = true)

include rising

/-- Below a slot that does not meet a rising condition nothing does. -/
theorem countP_below {first : Option α} (descending : Descending key (first :: slots))
    (fails : ¬ first.any meets = true) : (values slots).countP meets = 0 := by
  rw [countP_eq_zero]
  intro value member holds
  obtain ⟨_, inside, rfl⟩ := mem_filterMap.mp member
  obtain ⟨large, rfl, order⟩ := (pairwise_cons.mp descending).1 _ inside value rfl
  exact fails (rising _ _ order holds)

theorem any_getElem?_iff (descending : Descending key slots) {index : Nat} :
    (slots[index]?.join).any meets = true ↔ index < (values slots).countP meets := by
  induction slots generalizing index with
  | nil => simp [values]
  | cons first rest ih =>
    rw [countP_values_cons]
    cases index with
    | zero =>
      change first.any meets = true ↔ _
      by_cases here : first.any meets = true
      · simp [here]
      · simp [here, countP_below rising descending here]
    | succ index =>
      rw [getElem?_cons_succ, ih (pairwise_cons.mp descending).2]
      by_cases here : first.any meets = true
      · simp [here]
      · simp [here, countP_below rising descending here]

/-- An insertion adds its value to the count as far as there are slots. -/
theorem countP_insertTop (descending : Descending key slots) (incoming : α) :
    (values (insertTop key slots incoming)).countP meets =
      min slots.length ((values slots).countP meets + if meets incoming = true then 1 else 0) := by
  induction slots generalizing incoming with
  | nil => exact (Nat.zero_min _).symm
  | cons first rest ih =>
    have tail := (pairwise_cons.mp descending).2
    have below := countP_below rising descending
    cases first with
    | none =>
      rw [insertTop, countP_values_cons, countP_values_cons, below (by simp), length_cons]
      by_cases holds : meets incoming = true <;> simp [holds]
    | some existing =>
      unfold insertTop
      split
      · next larger =>
        rw [countP_values_cons, countP_values_cons, ih tail, length_cons, Option.any_some,
          Option.any_some]
        by_cases holds : meets incoming = true
        · rw [if_pos holds]
          omega
        · have fails : ¬ meets existing = true :=
            fun holding => holds (rising _ _ larger.le holding)
          simp [holds, fails, below fails]
      · next notLarger =>
        rw [countP_values_cons, countP_values_cons, ih tail, length_cons, Option.any_some]
        by_cases holds : meets existing = true
        · rw [if_pos holds]
          omega
        · have fails : ¬ meets incoming = true := fun holding =>
            holds (rising _ _ (Nat.le_of_not_lt notLarger) holding)
          simp [holds, fails, below holds]

end Counting

variable (key) in
/-- Insert a list of values into empty slots. -/
def topOf (count : Nat) (inserted : List α) : List (Option α) :=
  inserted.foldl (insertTop key) (List.replicate count none)

theorem descending_foldl (descending : Descending key slots)
    (inserted : List α) : Descending key (inserted.foldl (insertTop key) slots) := by
  induction inserted generalizing slots with
  | nil => exact descending
  | cons incoming rest ih => exact ih (descending.insertTop incoming)

theorem length_insertTop (slots : List (Option α)) (incoming : α) :
    (insertTop key slots incoming).length = slots.length := by
  fun_induction insertTop key slots incoming <;> simp_all

section Inserted

variable {count index : Nat} {inserted : List α} {value : α}

theorem mem_foldl {slot : Option α} (member : slot ∈ inserted.foldl (insertTop key) slots) :
    slot ∈ slots ∨ ∃ value ∈ inserted, slot = some value := by
  induction inserted generalizing slots with
  | nil => exact Or.inl member
  | cons incoming rest ih =>
    rcases ih member with old | ⟨value, later, isValue⟩
    · exact (mem_insertTop old).imp_right fun isIncoming => ⟨incoming, mem_cons_self, isIncoming⟩
    · exact Or.inr ⟨value, mem_cons_of_mem _ later, isValue⟩

theorem mem_of_topOf (member : some value ∈ topOf key count inserted) : value ∈ inserted := by
  rcases mem_foldl member with empty | ⟨_, inside, ⟨⟩⟩
  · cases eq_of_mem_replicate empty
  · exact inside

theorem descending_topOf : Descending key (topOf key count inserted) :=
  descending_foldl (descending_replicate count) inserted

section Counting

variable {meets : α → Bool} (rising :
  ∀ low high, key low ≤ key high → meets low = true → meets high = true)

include rising

theorem countP_foldl (descending : Descending key slots) :
    (values (inserted.foldl (insertTop key) slots)).countP meets =
      min slots.length ((values slots).countP meets + inserted.countP meets) := by
  induction inserted generalizing slots with
  | nil =>
    have within : (values slots).countP meets ≤ slots.length :=
      countP_le_length.trans (length_filterMap_le _ _)
    simp [within]
  | cons incoming rest ih =>
    rw [foldl_cons, ih (descending.insertTop incoming), countP_insertTop rising descending,
      length_insertTop, countP_cons]
    omega

theorem countP_topOf :
    (values (topOf key count inserted)).countP meets = min count (inserted.countP meets) := by
  rw [topOf, countP_foldl rising (descending_replicate count)]
  simp [values]

end Counting

/-- Slot `index` of the largest values meets a condition when more than `index` insertions do, if
the condition rises with the key among them. -/
theorem any_topOf_iff {meets : α → Bool} (inside : index < count)
    (rising : ∀ low ∈ inserted, ∀ high ∈ inserted, key low ≤ key high → meets low =
      true → meets high = true) :
    ((topOf key count inserted)[index]?.join).any meets = true ↔ index < inserted.countP meets := by
  classical
  -- the condition is extended to all values: some insertion below meets it
  let reaches (value : α) : Bool := ∃ low ∈ inserted, meets low = true ∧ key low ≤ key value
  have same : ∀ value ∈ inserted, meets value = reaches value := by
    intro value member
    refine Bool.eq_iff_iff.mpr (Iff.trans ?_ decide_eq_true_iff.symm)
    exact ⟨fun holds => ⟨value, member, holds, le_refl _⟩,
      fun ⟨low, isLow, holds, order⟩ => rising low isLow value member order holds⟩
  have rises : ∀ low high, key low ≤ key high → reaches low = true → reaches high = true := by
    intro low high order holds
    obtain ⟨least, isLeast, meetsLeast, below⟩ := of_decide_eq_true holds
    exact decide_eq_true ⟨least, isLeast, meetsLeast, below.trans order⟩
  have agree : ((topOf key count inserted)[index]?.join).any meets =
      ((topOf key count inserted)[index]?.join).any reaches := by
    cases found : (topOf key count inserted)[index]?.join with
    | none => rfl
    | some value =>
        exact same value (mem_of_topOf (mem_of_getElem? (Option.join_eq_some_iff.mp found)))
  have counts : inserted.countP reaches = inserted.countP meets :=
    countP_congr fun value member => by rw [same value member]
  rw [agree, any_getElem?_iff rises descending_topOf, countP_topOf rises, counts]
  omega

/-- Slot `index` of the largest values is matched by that many insertions and one more. -/
theorem le_countP_of_topOf (found : (topOf key count inserted)[index]? = some (some value)) :
    index + 1 ≤ inserted.countP fun other => key value ≤ key other := by
  have rises : ∀ low high, key low ≤ key high → decide (key value ≤ key low) = true →
      decide (key value ≤ key high) = true := by
    intro low high order reached
    exact decide_eq_true ((of_decide_eq_true reached).trans order)
  have enough := (any_getElem?_iff rises descending_topOf).mp (by rw [found]; simp)
  rw [countP_topOf rises] at enough
  exact (lt_min_iff.mp enough).2

end Inserted

end TopSlots
