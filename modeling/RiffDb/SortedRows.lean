import Mathlib.Data.List.Perm.Basic
import Mathlib.Data.List.Perm.Subperm
import Mathlib.Tactic

/-!
# Finite maps as rows in key order

A table of an ordered store is the list of its rows, strictly increasing in the key. Such a list is
determined by its lookups.

A patch is a table of new values and removals. The rows of the patched table are found by walking
both lists at once, and `Patches.next` is one step of that walk. The order of the keys is arbitrary,
so that a walk from the last row to the first is the same walk in the opposite order.
-/

namespace SortedRows

open List

universe u v

variable {K : Type u} {V : Type v} {order : K → K → Ordering}

/-- Strictly increasing keys. -/
def Ascending (order : K → K → Ordering) (rows : List (K × V)) : Prop :=
  rows.Pairwise fun earlier later => order earlier.1 later.1 = .lt

instance (rows : List (K × V)) : Decidable (Ascending order rows) :=
  inferInstanceAs (Decidable (rows.Pairwise _))

/-- Replace the row of a key, or insert it at its place. -/
def put (order : K → K → Ordering) (key : K) (value : V) : List (K × V) → List (K × V)
  | [] => [(key, value)]
  | row :: rest =>
    match order key row.1 with
    | .lt => (key, value) :: row :: rest
    | .eq => (key, value) :: rest
    | .gt => row :: put order key value rest

theorem ascending_nil : Ascending order ([] : List (K × V)) := List.Pairwise.nil

variable {row : K × V} {rest : List (K × V)}

theorem ascending_cons : Ascending order (row :: rest) ↔
    (∀ later ∈ rest, order row.1 later.1 = .lt) ∧ Ascending order rest := pairwise_cons

variable {rows : List (K × V)}

theorem Ascending.filter (ascending : Ascending order rows)
    (keep : K × V → Bool) :
      Ascending order (rows.filter keep) := List.Pairwise.filter keep ascending

variable {W : Type*}

theorem Ascending.mapValues (ascending : Ascending order rows)
    (convert : V → W) : Ascending order (rows.map fun row => (row.1, convert row.2)) :=
  pairwise_map.mpr ascending

theorem Ascending.reverse (ascending : Ascending order rows) :
    Ascending (fun left right => order right left) rows.reverse := pairwise_reverse.mpr ascending

variable {value : V} {key : K}

theorem mem_put (member : row ∈ put order key value rows) : row = (key, value) ∨ row ∈ rows := by
  induction rows with
  | nil => exact Or.inl (mem_singleton.mp member)
  | cons first rest ih =>
    unfold put at member
    split at member
    · rcases mem_cons.mp member with here | old
      · exact Or.inl here
      · exact Or.inr old
    · rcases mem_cons.mp member with here | later
      · exact Or.inl here
      · exact Or.inr (mem_cons_of_mem _ later)
    · rcases mem_cons.mp member with here | later
      · exact Or.inr (here ▸ mem_cons_self)
      · exact (ih later).imp_right (mem_cons_of_mem _)

variable {left right : List (K × V)}

theorem put_append_lt {pivot : K × V} (before : order key pivot.1 = .lt) :
    put order key value (left ++ pivot :: right) = put order key value left ++ pivot :: right := by
  induction left with
  | nil => simp only [nil_append, put, before, cons_append]
  | cons first rest ih =>
    simp only [cons_append, put]
    split
    · rfl
    · rfl
    · rw [ih, cons_append]

/-- A key above the first rows leaves them alone. -/
theorem put_append_of_gt [Std.OrientedCmp order] (above : ∀ row ∈ left, order row.1 key = .lt) :
    put order key value (left ++ right) = left ++ put order key value right := by
  induction left with
  | nil => rfl
  | cons first rest ih =>
    obtain ⟨here, others⟩ := forall_mem_cons.mp above
    have after : order key first.1 = .gt := Std.OrientedCmp.gt_iff_lt.mpr here
    simp only [cons_append, put, after, ih others]

theorem Ascending.eq_of_perm [Std.OrientedCmp order]
    (leftAscending : Ascending order left) (rightAscending : Ascending order right)
    (perm : left.Perm right) : left = right := by
  refine List.Perm.eq_of_pairwise ?_ leftAscending rightAscending perm
  intro one other _ _ below above
  have turned : order one.1 other.1 = .gt := Std.OrientedCmp.gt_iff_lt.mpr above
  rw [below] at turned
  cases turned

theorem ne_of_lt [Std.ReflCmp order] {left right : K} (below : order left right = .lt) :
    left ≠ right := by
  rintro rfl
  have same : order left left = .eq := Std.ReflCmp.compare_self
  rw [same] at below
  cases below

variable {key : K}

section Lookups

variable [BEq K]

theorem lookup_mapValues (convert : V → W) (rows : List (K × V)) (key : K) :
    (rows.map fun row => (row.1, convert row.2)).lookup key = (rows.lookup key).map convert := by
  induction rows with
  | nil => rfl
  | cons first rest ih =>
    rw [map_cons, lookup_cons, lookup_cons, ih]
    split <;> rfl

variable [LawfulBEq K]

theorem lookup_cons_ne (apart : key ≠ row.1) : (row :: rest).lookup key = rest.lookup key := by
  rw [lookup_cons, beq_false_of_ne apart]

theorem lookup_head (row : K × V) (rest : List (K × V)) :
    (row :: rest).lookup row.1 = some row.2 := by
  rw [lookup_cons, BEq.rfl]

theorem lookup_filter (keep : K → Bool) (rows : List (K × V)) (key : K) :
    (rows.filter fun row => keep row.1).lookup key = if keep key = true then rows.lookup key
      else none := by
  induction rows with
  | nil => simp
  | cons first rest ih =>
    obtain ⟨firstKey, firstValue⟩ := first
    by_cases same : key = firstKey
    · subst same
      by_cases kept : keep key = true
      · simp [kept]
      · simp [kept, ih]
    · rw [lookup_cons_ne same, ← ih]
      rw [filter_cons]
      split
      · exact lookup_cons_ne same
      · rfl

end Lookups

variable {rows : List (K × V)}

section Distinct

variable [Std.LawfulEqCmp order]

theorem Ascending.nodup_keys (ascending : Ascending order rows) : (rows.map (·.1)).Nodup :=
  pairwise_map.mpr (List.Pairwise.imp ne_of_lt ascending)

theorem Ascending.nodup (ascending : Ascending order rows) : rows.Nodup :=
  ascending.nodup_keys.of_map

variable [BEq K] [LawfulBEq K]

theorem lookup_eq_none (beyond : ∀ row ∈ rows, order key row.1 = .lt) : rows.lookup key = none := by
  apply lookup_eq_none_iff.mpr
  intro row member
  exact bne_iff_ne.mpr (ne_of_lt (beyond row member))

/-- The rows of a table are its lookups. -/
theorem Ascending.mem_iff (ascending : Ascending order rows) {value : V} :
    (key, value) ∈ rows ↔ rows.lookup key = some value := by
  induction rows with
  | nil => simp
  | cons first rest ih =>
    obtain ⟨above, others⟩ := ascending_cons.mp ascending
    obtain ⟨firstKey, firstValue⟩ := first
    rw [mem_cons]
    by_cases same : key = firstKey
    · subst same
      have fresh : (key, value) ∉ rest := by
        intro member
        rw [ih others, lookup_eq_none above] at member
        cases member
      simp [fresh, eq_comm]
    · rw [lookup_cons_ne same, ih others]
      simp [same]

end Distinct

/-- Put several rows, in their order. -/
def putAll (order : K → K → Ordering) (changes rows : List (K × V)) : List (K × V) :=
  changes.foldl (fun rows change => put order change.1 change.2 rows) rows

variable {left right : List (K × V)}

section Lawful

variable [Std.TransCmp order] [Std.LawfulEqCmp order]

theorem Ascending.put (ascending : Ascending order rows) (key : K) (value : V) :
    Ascending order (put order key value rows) := by
  induction rows with
  | nil => exact pairwise_singleton _ _
  | cons first rest ih =>
    obtain ⟨above, others⟩ := ascending_cons.mp ascending
    unfold SortedRows.put
    split
    · next before =>
      refine ascending_cons.mpr ⟨?_, ascending⟩
      intro later member
      rcases mem_cons.mp member with rfl | deeper
      · exact before
      · exact Std.TransCmp.lt_trans before (above later deeper)
    · next same =>
      rw [Std.LawfulEqCmp.eq_of_compare same]
      exact ascending_cons.mpr ⟨above, others⟩
    · next after =>
      refine ascending_cons.mpr ⟨?_, ih others⟩
      intro later member
      rcases mem_put member with rfl | old
      · exact Std.OrientedCmp.gt_iff_lt.mp after
      · exact above later old

theorem Ascending.putAll (ascending : Ascending order rows) (changes : List (K × V)) :
    Ascending order (putAll order changes rows) := by
  induction changes generalizing rows with
  | nil => exact ascending
  | cons change rest ih => exact ih (ascending.put change.1 change.2)

variable [BEq K] [LawfulBEq K]

/-- Tables with the same lookups are the same table. -/
theorem Ascending.ext (leftAscending : Ascending order left)
    (rightAscending : Ascending order right) (same : ∀ key, left.lookup key = right.lookup key) :
    left = right := by
  refine leftAscending.eq_of_perm rightAscending ?_
  refine (perm_ext_iff_of_nodup leftAscending.nodup rightAscending.nodup).mpr ?_
  rintro ⟨key, value⟩
  rw [leftAscending.mem_iff, rightAscending.mem_iff, same]

theorem Ascending.lookup_reverse (ascending : Ascending order rows) (key : K) :
    rows.reverse.lookup key = rows.lookup key := by
  apply Option.ext
  intro value
  rw [← ascending.reverse.mem_iff, ← ascending.mem_iff, mem_reverse]

theorem lookup_put (key other : K) (value : V) (rows : List (K × V)) :
    (put order key value rows).lookup other = if other == key then some value
      else rows.lookup other := by
  by_cases same : other = key
  · subst same
    rw [if_pos BEq.rfl]
    induction rows with
    | nil => simp [put]
    | cons first rest ih =>
      unfold put
      split
      · simp
      · simp
      · next after =>
        have apart : other ≠ first.1 := Ne.symm (ne_of_lt (Std.OrientedCmp.gt_iff_lt.mp after))
        rw [lookup_cons_ne apart, ih]
  · rw [if_neg (by simpa using same)]
    induction rows with
    | nil => exact lookup_cons_ne same
    | cons first rest ih =>
      unfold put
      split
      · rw [lookup_cons_ne same]
      · next equal =>
        have isFirst : key = first.1 := Std.LawfulEqCmp.eq_of_compare equal
        rw [lookup_cons_ne same, lookup_cons_ne (isFirst ▸ same)]
      · rw [lookup_cons, lookup_cons, ih]

theorem lookup_putAll {changes : List (K × V)} (distinct : Ascending order changes)
    (rows : List (K × V)) (key : K) :
    (putAll order changes rows).lookup key = (changes.lookup key).or (rows.lookup key) := by
  induction changes generalizing rows with
  | nil => rfl
  | cons change rest ih =>
    obtain ⟨above, others⟩ := ascending_cons.mp distinct
    change (putAll order rest (put order change.1 change.2 rows)).lookup key = _
    rw [ih others, lookup_put]
    by_cases same : key = change.1
    · subst same
      rw [lookup_eq_none above, lookup_cons]
      simp
    · rw [lookup_cons_ne same, if_neg (by simpa using same)]

/-- A put changes a sum over the rows by the row it replaces and the row it adds. -/
theorem sum_put (weight : K × V → Nat) (key : K) (value : V) (ascending : Ascending order rows) :
    ((put order key value rows).map weight).sum +
        (rows.lookup key).elim 0 (fun prior => weight (key, prior)) =
      (rows.map weight).sum + weight (key, value) := by
  induction rows with
  | nil => simp [put]
  | cons first rest ih =>
    obtain ⟨above, others⟩ := ascending_cons.mp ascending
    unfold put
    split
    · next before =>
      have missing : ((first :: rest).lookup key) = none := by
        refine @lookup_eq_none _ _ order _ _ _ _ _ ?_
        intro row member
        rcases mem_cons.mp member with rfl | deeper
        · exact before
        · exact Std.TransCmp.lt_trans before (above row deeper)
      rw [missing]
      simp only [Option.elim_none, map_cons, sum_cons]
      omega
    · next equal =>
      obtain rfl : key = first.1 := Std.LawfulEqCmp.eq_of_compare equal
      rw [lookup_cons]
      simp only [BEq.rfl, Option.elim_some, map_cons, sum_cons, Prod.mk.eta]
      omega
    · next after =>
      have apart : key ≠ first.1 := Ne.symm (ne_of_lt (Std.OrientedCmp.gt_iff_lt.mp after))
      have rest := ih others
      rw [lookup_cons_ne apart]
      simp only [map_cons, sum_cons]
      omega

omit [Std.TransCmp order] in
/-- A table whose rows are rows of another one weighs no more. -/
theorem sum_le_of_lookup {part whole : List (K × V)} (partAscending : Ascending order part)
    (wholeAscending : Ascending order whole) (weight : K × V → Nat)
    (included : ∀ key value, part.lookup key = some value → whole.lookup key = some value) :
    (part.map weight).sum ≤ (whole.map weight).sum := by
  have subset : part ⊆ whole := by
    rintro ⟨key, value⟩ member
    exact wholeAscending.mem_iff.mpr (included key value (partAscending.mem_iff.mp member))
  obtain ⟨rearranged, permuted, sublist⟩ := subperm_of_subset partAscending.nodup subset
  calc (part.map weight).sum = (rearranged.map weight).sum := ((permuted.map weight).sum_eq).symm
    _ ≤ (whole.map weight).sum := (sublist.map weight).sum_le_sum fun _ _ => Nat.zero_le _

end Lawful

section Patches

variable [BEq K] [LawfulBEq K]

/-- `rows` is the table `base` read through a patch. -/
structure Patches (order : K → K → Ordering) (base : List (K × V)) (patch : List (K × Option V))
    (rows : List (K × V)) : Prop where
  ascending : Ascending order rows
  lookup : ∀ key, rows.lookup key = (patch.lookup key).getD (base.lookup key)

omit [LawfulBEq K] in
theorem patches_nil : Patches order ([] : List (K × V)) [] [] := ⟨ascending_nil, fun _ => rfl⟩

/-- What is left of the rows once a key has been decided. -/
structure Passes {W : Type*} (order : K → K → Ordering) (key : K) (rows rest : List (K × W)) :
    Prop where
  above : ∀ row ∈ rest, order key row.1 = .lt
  others : ∀ other, other ≠ key → rows.lookup other = rest.lookup other

theorem passes_cons {row : K × W} {rest : List (K × W)}
    (ascending : Ascending order (row :: rest)) : Passes order row.1 (row :: rest) rest :=
  ⟨(ascending_cons.mp ascending).1, fun _ apart => lookup_cons_ne apart⟩

variable [Std.TransCmp order] [Std.LawfulEqCmp order]

omit [LawfulBEq K] [Std.LawfulEqCmp order] in
/-- A key before the first row passes none. -/
theorem passes_self {rows : List (K × W)} (ascending : Ascending order rows)
    (before : ∀ first ∈ rows.head?, order key first.1 = .lt) : Passes order key rows rows := by
  refine ⟨?_, fun _ _ => rfl⟩
  cases rows with
  | nil => simp
  | cons first rest =>
    have below := before first rfl
    intro row member
    rcases mem_cons.mp member with rfl | later
    · exact below
    · exact Std.TransCmp.lt_trans below ((ascending_cons.mp ascending).1 row later)

variable {base : List (K × V)} {patch : List (K × Option V)}

omit [Std.TransCmp order] in
/-- One step of the walk. The least key of both lists is decided; the rest of the rows come from
what is left of them. -/
theorem Patches.next {baseRest : List (K × V)} {patchRest : List (K × Option V)} {value : Option V}
    (rest : Patches order baseRest patchRest rows) (basePasses : Passes order key base baseRest)
    (patchPasses : Passes order key patch patchRest)
    (decided : (patch.lookup key).getD (base.lookup key) = value) :
    Patches order base patch ((value.map (Prod.mk key)).toList ++ rows) := by
  have above : ∀ row ∈ rows, order key row.1 = .lt := by
    rintro ⟨other, found⟩ member
    have looked := rest.ascending.mem_iff.mp member
    rw [rest.lookup] at looked
    cases patched : patchRest.lookup other with
    | some change =>
      obtain ⟨before, after, split, _⟩ := lookup_eq_some_iff.mp patched
      exact patchPasses.above (other, change) (by simp [split])
    | none =>
      rw [patched, Option.getD_none] at looked
      obtain ⟨before, after, split, _⟩ := lookup_eq_some_iff.mp looked
      exact basePasses.above (other, found) (by simp [split])
  have fresh : rows.lookup key = none := lookup_eq_none above
  constructor
  · cases value with
    | none => exact rest.ascending
    | some found => exact ascending_cons.mpr ⟨above, rest.ascending⟩
  · intro other
    by_cases same : other = key
    · subst same
      rw [decided]
      cases value with
      | none => exact fresh
      | some found => simp
    · rw [patchPasses.others other same, basePasses.others other same, ← rest.lookup]
      cases value with
      | none => rfl
      | some found => exact lookup_cons_ne same

/-- Every table can be patched. -/
theorem exists_patches (ascending : Ascending order base) (patch : List (K × Option V)) :
    ∃ rows, Patches order base patch rows := by
  induction patch with
  | nil => exact ⟨base, ascending, fun _ => rfl⟩
  | cons change rest ih =>
    obtain ⟨key, value⟩ := change
    obtain ⟨rows, patched⟩ := ih
    have elsewhere : ∀ other, other ≠ key → rows.lookup other =
        (((key, value) :: rest).lookup other).getD (base.lookup other) := by
      intro other apart
      rw [lookup_cons_ne apart, patched.lookup]
    cases value with
    | some value =>
      refine ⟨put order key value rows, patched.ascending.put key value, fun other => ?_⟩
      rw [lookup_put]
      by_cases same : other = key
      · simp [same]
      · rw [if_neg (by simpa using same), elsewhere other same]
    | none =>
      refine ⟨rows.filter fun row => !(row.1 == key), patched.ascending.filter _, fun other => ?_⟩
      have filtered := lookup_filter (fun candidate => !(candidate == key)) rows other
      by_cases same : other = key
      · subst same
        simpa using filtered
      · rw [filtered, if_pos (by simpa using same), elsewhere other same]

/-- There is only one patched table. -/
theorem Patches.unique (first : Patches order base patch left)
    (second : Patches order base patch right) : left = right :=
  first.ascending.ext second.ascending fun key => by rw [first.lookup, second.lookup]

end Patches

end SortedRows
