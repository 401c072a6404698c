import RiffDb.CompositeFrames

/-!
# Reading a checkpoint through its overlay

A range read walks the rows of the checkpoint and of the overlay at once, in either direction, and
stops at the requested number of rows or refuses after the allowed number of inspections. A view
reached by accepted frames reads, point by point and page by page, as the checkpoint after their
mutations in order.
-/

namespace CompositeReads

open ByteWire CheckedCode Methods SortedRows OverlayMap CompositeOverlay PersistentOverlayRange
open CompositeFrames OverlayMap.StorageValueError OverlayMap.PersistentOverlayMap

abbrev CompositeRow := Bytes × Bytes

structure BoundedCompositePage where
  rows : List CompositeRow
  inspected : Nat
deriving DecidableEq

def validateRangeKey (bounds : KeyRange Bytes) (key : Bytes) : Except StorageValueError Unit := do
  require (bounds.contains key = true) invalidShape
  validateComponent key

/-- The variables of the merge loop. Reading the checkpoint may fail at any row. -/
structure MergeState where
  base : List (Except StorageValueError CompositeRow)
  overlay : PersistentOverlayRange Bytes OverlayValue
  rows : List CompositeRow
  inspected : Nat
  lastBaseKey : Option Bytes

namespace MergeState

def takeBase (state : MergeState) (row : CompositeRow)
    (rest : List (Except StorageValueError CompositeRow)) : MergeState :=
  { state with
    base := rest
    rows := state.rows ++ [row]
    inspected := state.inspected + 1
    lastBaseKey := some row.1 }

def takeOverlay (state : MergeState) (change : Bytes × OverlayValue)
    (later : PersistentOverlayRange Bytes OverlayValue) : MergeState :=
  { state with
    overlay := later
    rows := state.rows ++ (change.2.map (Prod.mk change.1)).toList
    inspected := state.inspected + 1 }

/-- The overlay decides; its tombstone hides the row. -/
def takeBoth (state : MergeState) (row : CompositeRow)
    (rest : List (Except StorageValueError CompositeRow)) (change : Bytes × OverlayValue)
    (later : PersistentOverlayRange Bytes OverlayValue) : MergeState :=
  { state with
    base := rest
    overlay := later
    rows := state.rows ++ (change.2.map (Prod.mk row.1)).toList
    inspected := state.inspected + 1
    lastBaseKey := some row.1 }

/-- One round of the loop; `none` when both sides are exhausted. -/
def advance (direction : Direction) (bounds : KeyRange Bytes) (state : MergeState) :
    Except StorageValueError (Option MergeState) :=
  match state.base with
  | .error reason :: _ => .error reason
  | [] =>
    match state.overlay.next with
    | none => .ok none
    | some (change, later) => .ok (some (state.takeOverlay change later))
  | .ok row :: rest => do
    validateRangeKey bounds row.1
    require ((state.lastBaseKey.all fun last => direction.order last row.1 = .lt) = true)
      nonCanonicalOrder
    match state.overlay.next with
    | none => .ok (some (state.takeBase row rest))
    | some (change, later) =>
      match direction.order row.1 change.1 with
      | .lt => .ok (some (state.takeBase row rest))
      | .eq => .ok (some (state.takeBoth row rest change later))
      | .gt => .ok (some (state.takeOverlay change later))

/-- The loop, with the number of inspections that are left. -/
def merge (direction : Direction) (bounds : KeyRange Bytes) (maxRows : Nat) :
    Nat → MergeState → Except StorageValueError BoundedCompositePage
  | 0, state =>
    if maxRows ≤ state.rows.length then .ok ⟨state.rows, state.inspected⟩
    else do
      match ← state.advance direction bounds with
      | none => .ok ⟨state.rows, state.inspected⟩
      | some _ => .error limitExceeded
  | left + 1, state =>
    if maxRows ≤ state.rows.length then .ok ⟨state.rows, state.inspected⟩
    else do
      match ← state.advance direction bounds with
      | none => .ok ⟨state.rows, state.inspected⟩
      | some next => merge direction bounds maxRows left next

end MergeState

/-- `merge_overlay_bounded` and `merge_overlay_bounded_reverse`. -/
def mergeOverlay (direction : Direction) (tables : OverlayTables) (table : CompositeTableV1)
    (base : List (Except StorageValueError CompositeRow)) (bounds : KeyRange Bytes)
    (maxRows maxInspected : Nat) : Except StorageValueError BoundedCompositePage := do
  require (maxRows ≠ 0 ∧ maxInspected ≠ 0 ∧ maxRows ≤ maxInspected) invalidShape
  MergeState.merge direction bounds maxRows maxInspected
    ⟨base, (tables table).rangeBetween direction bounds.start bounds.stop, [], 0, none⟩

def mergeBounded (view : FrozenCompositeOverlay) (ledger : Ledger) (table : CompositeTableV1)
    (base : List (Except StorageValueError CompositeRow)) (bounds : KeyRange Bytes)
    (maxRows maxInspected : Nat) : Except StorageValueError BoundedCompositePage := do
  validateOverlayFamily ledger
  mergeOverlay .ascending view.tables table base bounds maxRows maxInspected

def mergeBoundedReverse (view : FrozenCompositeOverlay) (ledger : Ledger) (table : CompositeTableV1)
    (base : List (Except StorageValueError CompositeRow)) (bounds : KeyRange Bytes)
    (maxRows maxInspected : Nat) : Except StorageValueError BoundedCompositePage := do
  validateOverlayFamily ledger
  mergeOverlay .descending view.tables table base bounds maxRows maxInspected

namespace MergeState

/-- The rows on both sides, and what remains of the patched table. -/
structure Remains (direction : Direction) (state : MergeState) (base full : List CompositeRow) :
    Prop where
  reads : state.base = base.map Except.ok
  baseOrdered : Ascending direction.order base
  overlayOrdered : Ascending direction.order state.overlay.remaining
  patches : Patches direction.order base state.overlay.remaining full

/-- The round has moved at most one row from what remains to the page. -/
def Continues (direction : Direction) (state after : MergeState)
    (full : List CompositeRow) : Prop :=
  ∃ base rest, Remains direction after base rest ∧ state.rows ++ full = after.rows ++ rest ∧
    after.rows.length ≤ state.rows.length + 1

variable {direction : Direction}

open List

variable {base full : List CompositeRow}

theorem Remains.next {state after : MergeState} {baseRest : List CompositeRow}
    (remains : Remains direction state base full) (key : Bytes) (value : Option Bytes)
    (reads : after.base = baseRest.map Except.ok) (baseOrdered : Ascending direction.order baseRest)
    (overlayOrdered : Ascending direction.order after.overlay.remaining)
    (basePasses : Passes direction.order key base baseRest)
    (patchPasses : Passes direction.order key state.overlay.remaining after.overlay.remaining)
    (decided : (state.overlay.remaining.lookup key).getD (base.lookup key) = value)
    (pushed : after.rows = state.rows ++ (value.map (Prod.mk key)).toList) :
    Continues direction state after full := by
  obtain ⟨rest, patches⟩ := exists_patches baseOrdered after.overlay.remaining
  have whole := patches.next basePasses patchPasses decided
  refine ⟨baseRest, rest, ⟨reads, baseOrdered, overlayOrdered, patches⟩, ?_, ?_⟩
  · rw [remains.patches.unique whole, pushed, append_assoc]
  · rw [pushed, length_append]
    cases value <;> simp

section Rounds

variable {direction : Direction} {bounds : KeyRange Bytes} {state after : MergeState}
  {base full : List CompositeRow} {later : PersistentOverlayRange Bytes OverlayValue}
  {change : Bytes × OverlayValue}

/-- Only the overlay has a next row, or it comes first. -/
theorem Remains.takeOverlay (remains : Remains direction state base full)
    (yielded : state.overlay.next = some (change, later))
    (before : ∀ first ∈ base.head?, direction.order change.1 first.1 = .lt) :
    Continues direction state (state.takeOverlay change later) full := by
  obtain ⟨isRemaining, _⟩ := next_eq_some yielded
  have ordered := remains.overlayOrdered
  rw [isRemaining] at ordered
  refine remains.next change.1 change.2 remains.reads remains.baseOrdered
    (ascending_cons.mp ordered).2 (passes_self remains.baseOrdered before) ?_ ?_ rfl
  · rw [isRemaining]
    exact passes_cons ordered
  · rw [isRemaining, lookup_head, Option.getD_some]

section

variable {row : CompositeRow} {rest : List CompositeRow}
  (remains : Remains direction state (row :: rest) full)

include remains

/-- Only the checkpoint has a next row, or it comes first. -/
theorem Remains.takeBase
    (before : ∀ first ∈ state.overlay.remaining.head?, direction.order row.1 first.1 = .lt) :
    Continues direction state (state.takeBase row (rest.map Except.ok)) full := by
  have patchPasses := passes_self remains.overlayOrdered before
  refine remains.next row.1 (some row.2) rfl (ascending_cons.mp remains.baseOrdered).2
    remains.overlayOrdered (passes_cons remains.baseOrdered) patchPasses ?_ rfl
  rw [lookup_eq_none patchPasses.above, Option.getD_none, lookup_head]

/-- Both have a row of the same key. -/
theorem Remains.takeBoth
    (yielded : state.overlay.next = some (change, later)) (same : row.1 = change.1) :
    Continues direction state (state.takeBoth row (rest.map Except.ok) change later) full := by
  obtain ⟨isRemaining, _⟩ := next_eq_some yielded
  have ordered := remains.overlayOrdered
  rw [isRemaining] at ordered
  refine remains.next row.1 change.2 rfl (ascending_cons.mp remains.baseOrdered).2
    (ascending_cons.mp ordered).2 (passes_cons remains.baseOrdered) ?_ ?_ rfl
  · rw [isRemaining, same]
    exact passes_cons ordered
  · rw [isRemaining, same, lookup_head, Option.getD_some]

end

theorem advance_eq_none (remains : Remains direction state base full)
    (stopped : state.advance direction bounds = .ok none) : full = [] := by
  unfold advance at stopped
  rw [remains.reads] at stopped
  cases base with
  | nil =>
    cases isNext : state.overlay.next with
    | some yielded => simp [isNext] at stopped
    | none =>
      have patches := remains.patches
      rw [next_eq_none isNext] at patches
      exact patches.unique patches_nil
  | cons row rest =>
    simp only [map_cons, bind_eq_ok] at stopped
    obtain ⟨_, _, _, _, stopped⟩ := stopped
    split at stopped
    · cases stopped
    · split at stopped <;> cases stopped

theorem advance_eq_some (remains : Remains direction state base full)
    (advanced : state.advance direction bounds = .ok (some after)) :
    Continues direction state after full := by
  unfold advance at advanced
  rw [remains.reads] at advanced
  cases base with
  | nil =>
    cases isNext : state.overlay.next with
    | none => simp [isNext] at advanced
    | some yielded =>
      obtain ⟨change, later⟩ := yielded
      simp only [map_nil, isNext, Except.ok.injEq, Option.some.injEq] at advanced
      subst advanced
      exact remains.takeOverlay isNext (by simp)
  | cons row rest =>
    simp only [map_cons, bind_eq_ok] at advanced
    obtain ⟨_, _, _, _, advanced⟩ := advanced
    cases isNext : state.overlay.next with
    | none =>
      simp only [isNext, Except.ok.injEq, Option.some.injEq] at advanced
      subst advanced
      refine remains.takeBase ?_
      rw [next_eq_none isNext]
      simp
    | some yielded =>
      obtain ⟨change, later⟩ := yielded
      simp only [isNext] at advanced
      cases compared : direction.order row.1 change.1 with
      | lt =>
        simp only [compared, Except.ok.injEq, Option.some.injEq] at advanced
        subst advanced
        refine remains.takeBase ?_
        intro first isFirst
        rw [(next_eq_some isNext).1] at isFirst
        rw [← Option.some.inj isFirst]
        exact compared
      | eq =>
        simp only [compared, Except.ok.injEq, Option.some.injEq] at advanced
        subst advanced
        exact remains.takeBoth isNext (Std.LawfulEqCmp.eq_of_compare compared)
      | gt =>
        simp only [compared, Except.ok.injEq, Option.some.injEq] at advanced
        subst advanced
        refine remains.takeOverlay isNext ?_
        intro first isFirst
        cases isFirst
        exact Std.OrientedCmp.gt_iff_lt.mp compared

end Rounds

section

variable {bounds : KeyRange Bytes} {maxRows left : Nat} {state : MergeState}
  {page : BoundedCompositePage} (merged : merge direction bounds maxRows left state = .ok page)

include merged

/-- The loop stops with a full page, stops with both sides exhausted, or goes round once more. -/
theorem merge_cases :
    (page.rows = state.rows ∧
      (maxRows ≤ state.rows.length ∨ state.advance direction bounds = .ok none)) ∨
    (state.rows.length < maxRows ∧ ∃ fewer next, left = fewer + 1 ∧
      state.advance direction bounds = .ok (some next) ∧
      merge direction bounds maxRows fewer next = .ok page) := by
  -- The bound on the iterations matters only once another row has been found.
  cases left
  all_goals
    unfold merge at merged
    split at merged
    · next filled =>
      cases merged
      exact Or.inl ⟨rfl, Or.inl filled⟩
    obtain ⟨_ | next, advanced, merged⟩ := bind_eq_ok.mp merged
    · cases merged
      exact Or.inl ⟨rfl, Or.inr advanced⟩
  · cases merged
  · exact Or.inr ⟨by omega, _, next, rfl, advanced, merged⟩

/-- The loop returns the first rows of what it started with. -/
theorem merge_rows (remains : Remains direction state base full)
    (within : state.rows.length ≤ maxRows) : page.rows = (state.rows ++ full).take maxRows := by
  induction left using Nat.strongRecOn generalizing state base full with
  | ind left ih =>
    rcases merge_cases merged with ⟨same, filled | stopped⟩ | ⟨unfilled, fewer, next, rfl,
      advanced, rest⟩
    · rw [same, take_append_of_le_length filled, take_of_length_le within]
    · rw [same, advance_eq_none remains stopped, append_nil, take_of_length_le within]
    · obtain ⟨_, later, remainsNext, same, longer⟩ := advance_eq_some remains advanced
      rw [same]
      exact ih fewer (Nat.lt_succ_self fewer) rest remainsNext (by omega)

end

end MergeState

variable {target : TableRows}

section Pages

variable {tables : OverlayTables} {state : TableRows} {table : CompositeTableV1}

/-- The rows of a range, from the given end. -/
def rangeRows {V : Type} (direction : Direction) (bounds : KeyRange Bytes)
    (rows : List (Bytes × V)) : List (Bytes × V) :=
  (direction.arrange rows).filter fun row => bounds.contains row.1

theorem lookup_rangeRows {V : Type} (direction : Direction) (bounds : KeyRange Bytes)
    (rows : List (Bytes × V)) (ordered : Ascending compare rows) (key : Bytes) :
    (rangeRows direction bounds rows).lookup key =
      if bounds.contains key = true then rows.lookup key else none := by
  rw [rangeRows, lookup_filter (fun key => bounds.contains key), direction.lookup_arrange ordered]

/-- A page over the rows of a range holds the first rows of the range as the points resolve. -/
theorem mergeOverlay_rows {α : Type} {means : Bytes → α} {direction : Direction}
    {bounds : KeyRange Bytes} {maxRows maxInspected : Nat} {page : BoundedCompositePage}
    (reads : ∀ key, (resolve tables state table key).map means = (target.read table key).map means)
    (merged : mergeOverlay direction tables table
      ((rangeRows direction bounds (state.rows table)).map Except.ok) bounds maxRows maxInspected =
        .ok page) : page.rows.map (fun row => (row.1, means row.2)) =
      ((rangeRows direction bounds (target.rows table)).take maxRows).map
        fun row => (row.1, means row.2) := by
  simp only [mergeOverlay, bind_eq_ok, require_eq_ok, exists_const] at merged
  obtain ⟨_, merged⟩ := merged
  have baseOrdered : Ascending direction.order (rangeRows direction bounds (state.rows table)) :=
    (direction.ascending_arrange (state.ordered table)).filter _
  have isRemaining : ((tables table).rangeBetween direction bounds.start bounds.stop).remaining =
      rangeRows direction bounds (tables table).entries := remaining_rangeBetween ..
  have overlayOrdered : Ascending direction.order
      ((tables table).rangeBetween direction bounds.start bounds.stop).remaining := by
    rw [isRemaining]
    exact (direction.ascending_arrange (tables table).ordered).filter _
  obtain ⟨full, patches⟩ := exists_patches baseOrdered
    ((tables table).rangeBetween direction bounds.start bounds.stop).remaining
  have first := MergeState.merge_rows merged ⟨rfl, baseOrdered, overlayOrdered, patches⟩
    (Nat.zero_le maxRows)
  have same : full.map (fun row => (row.1, means row.2)) =
      (rangeRows direction bounds (target.rows table)).map fun row => (row.1, means row.2) := by
    refine (patches.ascending.mapValues means).ext
      (((direction.ascending_arrange (target.ordered table)).filter _).mapValues means) fun key =>
        ?_
    rw [lookup_mapValues, lookup_mapValues, patches.lookup, isRemaining,
      lookup_rangeRows direction bounds (tables table).entries (tables table).ordered,
      lookup_rangeRows direction bounds (state.rows table) (state.ordered table),
      lookup_rangeRows direction bounds (target.rows table) (target.ordered table)]
    by_cases inside : bounds.contains key = true
    · rw [if_pos inside, if_pos inside, if_pos inside]
      have read := reads key
      rw [resolve, PersistentOverlayMap.get_eq_lookup] at read
      exact read
    · rw [if_neg inside, if_neg inside, if_neg inside]
      rfl
  rw [first, List.nil_append, List.map_take, List.map_take, same]

end Pages

section Sequential

/-- The state after the mutations of a frame, in their order. -/
def executeFrame (state : TableRows) (frame : CompositeFrameV1) : TableRows :=
  frame.mutations.foldl TableRows.execute state

/-- The state after a sequence of frames. -/
def executeFrames (state : TableRows) (frames : List CompositeFrameV1) : TableRows :=
  frames.foldl executeFrame state

theorem executeFrames_append (state : TableRows) (first later : List CompositeFrameV1) :
    executeFrames state (first ++ later) = executeFrames (executeFrames state first) later :=
  List.foldl_append

variable {α : Type}

/-- Every point resolves to what the sequential state holds. -/
def Reads (means : Bytes → α) (tables : OverlayTables) (state target : TableRows) : Prop :=
  ∀ table key, (resolve tables state table key).map means = (target.read table key).map means

variable {means : Bytes → α} {setting : Setting}
variable {frame : CompositeFrameV1}

theorem Reads.grows {before after : OverlayTables} {state : TableRows}
    (reads : Reads means before state target) (grows : Grows means before after frame.mutations) :
    Reads means after state (executeFrame target frame) := by
  intro table key
  rw [executeFrame, read_foldl_execute]
  cases change : written frame.mutations table key with
  | none =>
    rw [resolve, grows.untouched table key change]
    exact reads table key
  | some changed =>
    obtain ⟨value, isValue, same⟩ := grows.touched table key changed change
    rw [resolve, isValue, Option.getD_some, Option.getD_some, same]

/-- The stages a view can be forked into. A value is represented only by one that means the
same. -/
inductive Staged (setting : Setting) (means : Bytes → α) (base : CompositeViewBase)
    (view : FrozenCompositeOverlay) : CompositeMutationStage → Prop
  | new : Staged setting means base view (.new view)
  | apply {stage after : CompositeMutationStage} (ledger : Ledger)
      (mutation : CompositeMutationV1) :
      Staged setting means base view stage →
      CompositeMutationStage.apply setting ledger mutation base stage = (.ok ⟨⟩, after) →
      Staged setting means base view after
  | observed {stage after : CompositeMutationStage} (ledger : Ledger)
      (mutation : CompositeMutationV1) (current : Option Bytes) :
      Staged setting means base view stage →
      CompositeMutationStage.applyWithObservedCurrent setting ledger mutation current base stage =
        (.ok ⟨⟩, after) →
      Staged setting means base view after
  | proven {stage after : CompositeMutationStage} (ledger : Ledger)
      (mutation : CompositeMutationV1) (current : Option Bytes) :
      Staged setting means base view stage →
      CompositeMutationStage.applyWithProvenCurrent setting ledger mutation current stage =
        (.ok ⟨⟩, after) →
      Staged setting means base view after
  | represent {stage after : CompositeMutationStage} (ledger : Ledger) (index : Nat)
      (representation : Bytes) (changed : Bool) :
      Staged setting means base view stage →
      (∀ mutation value, stage.mutations[index]? = some mutation → mutation.value = some value →
        means representation = means value) →
      CompositeMutationStage.representStaged setting ledger index representation stage =
        (.ok changed, after) →
      Staged setting means base view after

variable {base : CompositeViewBase} {view : FrozenCompositeOverlay}

theorem Staged.stages {stage : CompositeMutationStage}
    (staged : Staged setting means base view stage) : Stages setting means view stage := by
  induction staged with
  | new => exact stages_new view
  | apply ledger mutation _ applied ih => exact (ih.apply applied).1
  | observed ledger mutation current _ applied ih => exact (ih.applyWithObservedCurrent applied).1
  | proven ledger mutation current _ applied ih => exact (ih.applyAfterCurrentValidation applied).1
  | represent ledger index representation changed _ represents applied ih =>
    exact (ih.representStaged represents applied).1

/-- The ways in which a frame is accepted. -/
inductive Accepts (setting : Setting) (means : Bytes → α) (base : CompositeViewBase)
    (ledger : Ledger) (view : FrozenCompositeOverlay) :
    FrozenCompositeOverlay → CompositeFrameV1 → Prop
  | applied {frame : CompositeFrameV1} {builder : CompositeOverlayBuilder} :
      CompositeOverlayBuilder.applyFrame setting ledger frame base (.fromPublished view) =
        (.ok ⟨⟩, builder) →
      Accepts setting means base ledger view builder.freeze frame
  | closed {frame : CompositeFrameV1} {stage : CompositeMutationStage}
      {after : FrozenCompositeOverlay} :
      Staged setting means base view stage → stage.sealFrame setting ledger frame = .ok after →
      Accepts setting means base ledger view after frame
  | encoded {identity : CompositeFrameV1} {stage : CompositeMutationStage}
      {after : FrozenCompositeOverlay} {mutations : List CompositeMutationV1} :
      Staged setting means base view stage →
      stage.sealEncodedFrameWithMutations setting ledger identity = .ok (after, mutations) →
      Accepts setting means base ledger view after { identity with mutations := mutations }

theorem Accepts.advances {ledger : Ledger} {view after : FrozenCompositeOverlay}
    (accepts : Accepts setting means base ledger view after frame) :
    Advances setting means ledger view after frame := by
  cases accepts with
  | applied ran => exact applyFrame_eq_ok ran
  | closed staged ran => exact sealFrame_eq_ok staged.stages ran
  | encoded staged ran => exact sealEncodedFrameWithMutations_eq_ok staged.stages ran

/-- The views over a checkpoint, with the frames that were accepted. -/
inductive Reaches (setting : Setting) (means : Bytes → α) (base : CompositeViewBase) :
    FrozenCompositeOverlay → List CompositeFrameV1 → Prop
  | start (checkpoint : CompositeCheckpointV1) :
      Reaches setting means base (CompositeOverlayBuilder.new checkpoint).freeze []
  | frame {view after : FrozenCompositeOverlay} {frames : List CompositeFrameV1}
      {frame : CompositeFrameV1} (ledger : Ledger) : Reaches setting means base view frames →
      Accepts setting means base ledger view after frame →
      Reaches setting means base after (frames ++ [frame])

theorem Reaches.reads {frames : List CompositeFrameV1}
    (reaches : Reaches setting means base view frames) :
    Reads means view.tables base.state (executeFrames base.state frames) := by
  induction reaches with
  | start checkpoint =>
    intro table key
    rfl
  | frame ledger _ accepts ih =>
    rw [executeFrames_append]
    exact ih.grows accepts.advances.grows

theorem resolveOverlayPoint_eq (tables : OverlayTables) (base : CompositeViewBase)
    (table : CompositeTableV1) (key : Bytes) :
    resolveOverlayPoint tables base table key = .ok (resolve tables base.state table key) := by
  unfold resolveOverlayPoint resolve
  split
  · next missing => rw [missing]; rfl
  · next removed => rw [removed]; rfl
  · next value found => rw [found]; rfl

theorem resolvePoint_reads (reads : Reads means view.tables base.state target) (ledger : Ledger)
    (table : CompositeTableV1) (key : Bytes) :
    (view.resolvePoint ledger base table key).map (Option.map means) =
      if ledger.enabled then .ok ((target.read table key).map means) else .error limitExceeded := by
  rw [FrozenCompositeOverlay.resolvePoint, resolveOverlayPoint_eq, ← reads table key]
  by_cases enabled : ledger.enabled = true
  · rw [validateOverlayFamily, require_pos enabled, if_pos enabled]
    rfl
  · rw [validateOverlayFamily, require_neg enabled, if_neg enabled]
    rfl

/-- Points and pages of a view are those of the sequential state, and a refused call changes
nothing. With `means` the identity, no value stands for another and the equations are exact. -/
theorem overlay_reads_sequentially (means : Bytes → α) (setting : Setting)
    (base : CompositeViewBase) :
    (∀ view frames, Reaches setting means base view frames → ∀ ledger table,
      (∀ key, (view.resolvePoint ledger base table key).map (Option.map means) =
        if ledger.enabled then
          .ok (((executeFrames base.state frames).read table key).map means)
        else .error limitExceeded) ∧
      (∀ bounds maxRows maxInspected page, mergeBounded view ledger table
          ((rangeRows .ascending bounds (base.state.rows table)).map Except.ok) bounds maxRows
          maxInspected = .ok page →
        page.rows.map (fun row => (row.1, means row.2)) =
          ((((executeFrames base.state frames).rows table).filter
            fun row => bounds.contains row.1).take maxRows).map fun row => (row.1, means row.2)) ∧
      (∀ bounds maxRows maxInspected page, mergeBoundedReverse view ledger table
          ((rangeRows .descending bounds (base.state.rows table)).map Except.ok) bounds maxRows
          maxInspected = .ok page →
        page.rows.map (fun row => (row.1, means row.2)) =
          ((((executeFrames base.state frames).rows table).reverse.filter
            fun row => bounds.contains row.1).take maxRows).map fun row => (row.1, means row.2))) ∧
    (∀ ledger frame builder, Keeps
      (CompositeOverlayBuilder.applyFrame setting ledger frame base) builder) ∧
    (∀ ledger mutation observed stage,
      Keeps (CompositeMutationStage.apply setting ledger mutation base) stage ∧
      Keeps (CompositeMutationStage.applyWithObservedCurrent setting ledger mutation observed base)
        stage ∧
      Keeps (CompositeMutationStage.applyWithProvenCurrent setting ledger mutation observed) stage)
      ∧ ∀ ledger index representation stage,
      Keeps (CompositeMutationStage.representStaged setting ledger index representation) stage := by
  refine ⟨?_, fun _ _ builder => keeps_applyFrame builder, ?_, ?_⟩
  · intro view frames reaches ledger table
    have reads := reaches.reads
    refine ⟨resolvePoint_reads reads ledger table, ?_, ?_⟩
    all_goals
      intro bounds maxRows maxInspected page merged
      obtain ⟨_, _, merged⟩ := bind_eq_ok.mp merged
      exact mergeOverlay_rows (reads table) merged
  · intro ledger mutation observed stage
    exact ⟨keeps_apply stage, keeps_applyWithObservedCurrent stage observed,
      keeps_applyAfterCurrentValidation stage observed⟩
  · intro ledger index representation stage
    exact keeps_representStaged stage index representation

end Sequential

section Sample

def sampleSetting : Setting where
  layout := ⟨64, 4096, 32⟩
  digest _ := List.Vector.replicate 32 0

def sampleLedger : Ledger where
  enabled := true
  member _ := true
  insertion _ _ := ⟨true, fun _ => false⟩
  lineage := some 0

def sampleCheckpoint : CompositeCheckpointV1 :=
  ⟨.sample, .lit 1, List.Vector.replicate 32 0, none, none, List.Vector.replicate 32 0⟩

/-- Two rows in one table. -/
def sampleRows : CompositeTableV1 → List CompositeRow
  | .entities => [([1], [7]), ([3], [8])]
  | _ => []

theorem ascending_sampleRows (table : CompositeTableV1) : Ascending compare (sampleRows table) := by
  cases table with
  | entities => exact ascending_cons.mpr ⟨by decide, List.pairwise_singleton _ _⟩
  | _ => exact ascending_nil

def sampleBase : CompositeViewBase where
  state := ⟨sampleRows, ascending_sampleRows⟩
  validateEntry _ _ _ := .ok ()

/-- The first row is deleted, and a row comes between them. -/
def sampleFrame : CompositeFrameV1 where
  kind := .retentionPrune
  databaseId := .sample
  predecessorApplication := none
  coveredApplication := none
  predecessorAdministration := none
  coveredAdministration := none
  transitionCount := 1
  encodedBytes := 100
  previousHash := List.Vector.replicate 32 0
  frameHash := List.Vector.replicate 32 1
  mutations := [.delete .entities [1] (List.Vector.replicate 32 0), .put .entities [2] none [9]]

def sampleOutcome : Except StorageValueError Unit × CompositeOverlayBuilder :=
  CompositeOverlayBuilder.applyFrame sampleSetting sampleLedger sampleFrame sampleBase
    (.new sampleCheckpoint)

theorem sampleOutcome_accepted : sampleOutcome = (.ok ⟨⟩, sampleOutcome.2) :=
  Prod.ext (by decide +kernel) rfl

theorem overlay_reads_sequentially_sample :
    ∃ view, Reaches sampleSetting id sampleBase view [sampleFrame] ∧
      view.resolvePoint sampleLedger sampleBase .entities [1] = .ok none ∧
      ∃ page, mergeBounded view sampleLedger .entities
          ((rangeRows .ascending ⟨[0], none⟩ (sampleRows .entities)).map Except.ok)
            ⟨[0], none⟩ 5 9 = .ok page ∧ page.rows = [([2], [9]), ([3], [8])] := by
  have reaches : Reaches sampleSetting id sampleBase sampleOutcome.2.freeze [sampleFrame] :=
    .frame sampleLedger (.start sampleCheckpoint) (.applied sampleOutcome_accepted)
  obtain ⟨points, pages, _⟩ :=
    (overlay_reads_sequentially id sampleSetting sampleBase).1 _ _ reaches
    sampleLedger .entities
  refine ⟨sampleOutcome.2.freeze, reaches, ?_, ?_⟩
  · have point := points [1]
    rw [Option.map_id, Except.map_id] at point
    rw [id, id] at point
    exact point
  · have succeeds : (mergeBounded sampleOutcome.2.freeze sampleLedger .entities
        ((rangeRows .ascending ⟨[0], none⟩ (sampleRows .entities)).map Except.ok) ⟨[0], none⟩ 5
        9).isOk = true := by decide +kernel
    obtain ⟨page, merged⟩ := ok_of_isOk succeeds
    have rows := pages ⟨[0], none⟩ 5 9 page merged
    refine ⟨page, merged, ?_⟩
    simp only [id, Prod.mk.eta, List.map_id'] at rows
    rw [rows]
    decide +kernel

end Sample

end CompositeReads
