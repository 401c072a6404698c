import Mathlib.Data.Finset.Card
import Mathlib.Data.List.Sort
import Mathlib.Tactic

/-!
# Majorities of a finite voter list

Counting facts about sublists of a duplicate-free list: two groups that together outnumber
the list share a member, and a group inside the list splits its length. Sorted lists are
checked for duplicates by comparing neighbours only, as code that sorts first does.
-/

namespace Quorums

open List

universe u

variable {α : Type u} [DecidableEq α]

/-- The size of a strict majority of `n` voters. -/
def strictMajority (n : Nat) : Nat := n / 2 + 1

theorem two_majorities (n : Nat) : n < strictMajority n + strictMajority n := by
  unfold strictMajority
  omega

/-- Two groups of voters that together outnumber the list have a common member. -/
theorem exists_common {voters left right : List α} (leftDistinct : left.Nodup)
    (rightDistinct : right.Nodup) (leftVoters : left ⊆ voters) (rightVoters : right ⊆ voters)
    (crowded : voters.length < left.length + right.length) : ∃ voter ∈ left, voter ∈ right := by
  have outnumber : voters.toFinset.card < left.toFinset.card + right.toFinset.card := by
    rw [toFinset_card_of_nodup leftDistinct, toFinset_card_of_nodup rightDistinct]
    exact lt_of_le_of_lt (toFinset_card_le voters) crowded
  have included : ∀ {group : List α}, group ⊆ voters → group.toFinset ⊆ voters.toFinset := by
    intro group inside voter member
    exact mem_toFinset.mpr (inside (mem_toFinset.mp member))
  obtain ⟨voter, shared⟩ := Finset.inter_nonempty_of_card_lt_card_add_card
    (included leftVoters) (included rightVoters) outnumber
  simp only [Finset.mem_inter, mem_toFinset] at shared
  exact ⟨voter, shared.1, shared.2⟩

omit [DecidableEq α] in
/-- A duplicate-free group on which a test fails leaves at most the others to pass it. -/
theorem length_filter_add_le {voters group : List α} {p : α → Bool} (distinct : group.Nodup)
    (inside : group ⊆ voters) (fails : ∀ voter ∈ group, p voter = false) :
    (voters.filter p).length + group.length ≤ voters.length := by
  have rejected : group ⊆ voters.filter fun voter => !p voter := by
    intro voter member
    exact mem_filter.mpr ⟨inside member, by simp [fails voter member]⟩
  have bound : group.length ≤ (voters.filter fun voter => !p voter).length :=
    (subperm_of_subset distinct rejected).length_le
  have split := length_eq_length_filter_add (l := voters) p
  omega

/-- Some two neighbours are equal. -/
def adjacentDuplicate : List α → Bool
  | first :: second :: rest => first = second || adjacentDuplicate (second :: rest)
  | _ => false

theorem adjacentDuplicate_of_nodup {values : List α} (distinct : values.Nodup) :
    adjacentDuplicate values = false := by
  induction values with
  | nil => rfl
  | cons first rest ih =>
    obtain ⟨fresh, others⟩ := nodup_cons.mp distinct
    cases rest with
    | nil => rfl
    | cons second rest =>
      have apart : first ≠ second := fun same => fresh (same ▸ mem_cons_self)
      simp only [adjacentDuplicate, Bool.or_eq_false_iff, decide_eq_false_iff_not]
      exact ⟨apart, ih others⟩

/-- In a list sorted by an antisymmetric relation, duplicates are neighbours. -/
theorem nodup_of_sorted {le : α → α → Prop} (antisymm : ∀ {x y}, le x y → le y x → x = y)
    {values : List α} (sorted : values.Pairwise le) (apart : adjacentDuplicate values = false) :
    values.Nodup := by
  induction values with
  | nil => exact nodup_nil
  | cons first rest ih =>
    obtain ⟨below, restSorted⟩ := pairwise_cons.mp sorted
    cases rest with
    | nil => exact nodup_singleton first
    | cons second rest =>
      simp only [adjacentDuplicate, Bool.or_eq_false_iff, decide_eq_false_iff_not] at apart
      refine nodup_cons.mpr ⟨?_, ih restSorted apart.2⟩
      intro again
      have firstBelow := below second mem_cons_self
      rcases mem_cons.mp again with same | later
      · exact apart.1 same
      · have secondBelow := (pairwise_cons.mp restSorted).1 first later
        exact apart.1 (antisymm firstBelow secondBelow)

end Quorums
