import RiffDb.CompositeOverlay

/-!
# What an accepted frame does to an overlay

An accepted frame leaves at each key the last of its mutations there, and every other entry as it
was; it adds one lineage node with its keys; and the charge of the overlay stays the sum over its
entries. A refused frame or mutation changes nothing. The same holds of a staged frame.
-/

namespace CompositeFrames

open ByteWire CheckedCode Methods SortedRows OverlayMap CompositeOverlay PersistentOverlayMap List
  Function

variable {key : Bytes} {value : Option Bytes} {charge : Nat}

section Charges

variable (layout : OverlayLayout)

/-- What one entry is charged when nothing overflows. -/
def weight (entry : Bytes × OverlayValue) : Nat :=
  entry.1.length + entry.2.elim 1 List.length + layout.entryOverhead

/-- What all entries of an overlay are charged. -/
def totalCharge (entries : CompositeTableV1 → List (Bytes × OverlayValue)) : Nat :=
  (CompositeTableV1.all.map fun table => ((entries table).map (weight layout)).sum).sum

theorem rawEntryCharge_eq_ok (charged : rawEntryCharge layout key value = .ok charge) :
    charge = weight layout (key, value) := by
  simp only [rawEntryCharge, okOr_eq_ok, Option.bind_eq_some_iff, checkedAdd_eq_some] at charged
  obtain ⟨_, ⟨_, rfl⟩, _, rfl⟩ := charged
  rfl

theorem rawEntryCharge_of_lt (fits : weight layout (key, value) < 2 ^ 64) :
    rawEntryCharge layout key value = .ok (weight layout (key, value)) := by
  unfold weight at fits ⊢
  dsimp only at fits ⊢
  have size : checkedAdd key.length (value.elim 1 List.length) =
      some (key.length + value.elim 1 List.length) := by
    rw [checkedAdd_eq_some]
    exact ⟨by omega, rfl⟩
  rw [rawEntryCharge, size, Option.bind_some, okOr_eq_ok, checkedAdd_eq_some]
  exact ⟨fits, rfl⟩

theorem sum_map_update {α : Type} [DecidableEq α] {items : List α} (distinct : items.Nodup)
    {item : α} (member : item ∈ items) (before after : α → Nat)
    (others : ∀ other, other ≠ item → after other = before other) :
    (items.map after).sum + before item = (items.map before).sum + after item := by
  induction items with
  | nil => cases member
  | cons first rest ih =>
    obtain ⟨fresh, distinctRest⟩ := nodup_cons.mp distinct
    simp only [map_cons, sum_cons]
    rcases mem_cons.mp member with rfl | later
    · have same : rest.map after = rest.map before := by
        apply map_congr_left
        intro other isOther
        refine others other ?_
        rintro rfl
        exact fresh isOther
      rw [same]
      omega
    · have apart : first ≠ item := by
        rintro rfl
        exact fresh later
      have rest := ih distinctRest later
      rw [others first apart]
      omega

/-- A put in one table. -/
theorem totalCharge_put (entries : CompositeTableV1 → List (Bytes × OverlayValue))
    (table : CompositeTableV1) (key : Bytes) (value : OverlayValue)
    (ordered : Ascending compare (entries table)) :
    totalCharge layout (Function.update entries table (put compare key value (entries table))) +
        ((entries table).lookup key).elim 0 (fun prior => weight layout (key, prior)) =
      totalCharge layout entries + weight layout (key, value) := by
  have moved := sum_map_update CompositeTableV1.nodup_all table.mem_all
    (fun other => ((entries other).map (weight layout)).sum)
    (fun other => ((Function.update entries table (put compare key value (entries table)) other).map
      (weight layout)).sum)
    (by intro other apart; simp only [update_of_ne apart])
  have one := sum_put (weight layout) key value ordered
  simp only [update_self] at moved
  unfold totalCharge
  omega

end Charges

theorem recharge_eq_ok {setting : Setting} {next : Nat} {prior : Option OverlayValue}
    (recharged : recharge setting charge key prior value = .ok next) :
    next + prior.elim 0 (fun prior => weight setting.layout (key, prior)) =
      charge + weight setting.layout (key, value) := by
  simp only [recharge, bind_eq_ok, okOr_eq_ok, checkedAdd_eq_some] at recharged
  obtain ⟨kept, isKept, added, isAdded, _, rfl⟩ := recharged
  rw [rawEntryCharge_eq_ok setting.layout isAdded]
  cases prior with
  | none =>
    cases isKept
    simp
  | some prior =>
    simp only [giveBack, bind_eq_ok, okOr_eq_ok, checkedSub_eq_some, entryCharge] at isKept
    obtain ⟨priorCharge, isPrior, enough, rfl⟩ := isKept
    rw [rawEntryCharge_eq_ok setting.layout isPrior] at enough ⊢
    simp only [Option.elim_some]
    omega

variable {index : Nat} {mutation : CompositeMutationV1}

section Entries

variable {setting : Setting} {ledger : Ledger}

variable {value : OverlayValue} {key : Bytes}

variable {pending : CompositeTableV1 → List (Bytes × OverlayValue)} {tables after : OverlayTables}
  {table : CompositeTableV1}

/-- One table takes its pending entries; the others stay. -/
theorem insertPending_eq_ok (inserted : insertPending ledger tables pending table = .ok after) :
    (after table).entries = putAll compare (pending table) (tables table).entries ∧
      ∀ other, other ≠ table → after other = tables other := by
  simp only [insertPending, bind_eq_ok, Except.ok.injEq] at inserted
  obtain ⟨target, folded, rfl⟩ := inserted
  constructor
  · have puts : target.entries = (pending table).foldl
        (fun rows entry => put compare entry.1 entry.2 rows) (tables table).entries := by
      refine foldlM_simulates (R := fun map rows => map.entries = rows) ?_ rfl folded
      intro map rows entry next same moved
      rw [entries_of_insert (run_eq_ok.mp moved), same]
    rw [update_self, puts]
    rfl
  · intro other apart
    exact update_of_ne apart _ _

/-- The tables visited so far have taken their pending entries. -/
def Visited (tables : OverlayTables) (pending : CompositeTableV1 → List (Bytes × OverlayValue))
    (state : OverlayTables) (seen : List CompositeTableV1) : Prop :=
  seen.Nodup → ∀ table,
    (table ∈ seen → (state table).entries = putAll compare (pending table) (tables table).entries) ∧
    (table ∉ seen → state table = tables table)

theorem Visited.insertPending {tables state next : OverlayTables} {seen : List CompositeTableV1}
    {item : CompositeTableV1} (visited : Visited tables pending state seen)
    (moved : insertPending ledger state pending item = .ok next) :
    Visited tables pending next (seen ++ [item]) := by
  intro distinct other
  obtain ⟨distinctSeen, _, apart⟩ := nodup_append.mp distinct
  obtain ⟨here, elsewhere⟩ := insertPending_eq_ok moved
  have fresh : item ∉ seen := fun member => apart item member item (by simp) rfl
  by_cases same : other = item
  · subst same
    refine ⟨fun _ => ?_, fun missing => absurd (by simp) missing⟩
    rw [here, (visited distinctSeen other).2 fresh]
  · rw [elsewhere other same]
    simpa [same] using visited distinctSeen other

theorem insertAll_eq_ok (inserted : CompositeTableV1.all.foldlM
      (fun tables table => insertPending ledger tables pending table) tables = .ok after)
    (table : CompositeTableV1) :
    (after table).entries = putAll compare (pending table) (tables table).entries := by
  have initially : Visited tables pending tables [] := fun _ _ => ⟨by simp, fun _ => rfl⟩
  have visited := foldlM_invariant (P := Visited tables pending)
    (fun _ _ _ _ held moved => Visited.insertPending held moved) initially inserted
  rw [nil_append] at visited
  exact (visited CompositeTableV1.nodup_all table).1 table.mem_all

/-- The pending entries so far: what the mutations have written, charged on top of the tables. -/
structure Collected (setting : Setting) (tables : OverlayTables) (charged : Nat)
    (pending : PendingTables) (mutations : List CompositeMutationV1) : Prop where
  ordered : ∀ table, Ascending compare (pending.entries table)
  written : ∀ table key, (pending.entries table).lookup key = written mutations table key
  charge : charged = totalCharge setting.layout (fun table => (tables table).entries) →
    pending.candidateCharge = totalCharge setting.layout
      fun table => putAll compare (pending.entries table) (tables table).entries

theorem collected_nil (tables : OverlayTables) (charged : Nat) :
    Collected setting tables charged ⟨fun _ => [], charged⟩ [] :=
  ⟨fun _ => ascending_nil, fun _ _ => rfl, fun accounted => accounted⟩

theorem putAll_put {changes rows : List (Bytes × OverlayValue)}
    (ordered : Ascending compare changes)
    (rowsOrdered : Ascending compare rows) (key : Bytes) (value : OverlayValue) :
    putAll compare (put compare key value changes) rows =
      put compare key value (putAll compare changes rows) := by
  refine (rowsOrdered.putAll _).ext ((rowsOrdered.putAll _).put _ _) ?_
  intro other
  rw [lookup_putAll (ordered.put key value), lookup_put, lookup_put, lookup_putAll ordered]
  split <;> rfl

variable {tables : OverlayTables} {mutations : List CompositeMutationV1}
variable {charged maximum : Nat} {base : CompositeViewBase}

theorem Collected.applyPending {pending next : PendingTables}
    (collected : Collected setting tables charged pending mutations)
    (applied :
      applyPending setting ledger tables base maximum pending (mutation, index) = .ok next) :
    Collected setting tables charged next (mutations ++ [mutation]) ∧
      next.candidateCharge ≤ maximum := by
  simp only [CompositeOverlay.applyPending, bind_eq_ok, require_eq_ok, Except.ok.injEq,
    exists_const] at applied
  obtain ⟨_, _, _, _, charge, recharged, fits, _, rfl⟩ := applied
  refine ⟨⟨?_, ?_, ?_⟩, fits⟩
  · intro table
    by_cases same : table = mutation.table
    · subst same
      simpa using (collected.ordered mutation.table).put mutation.key mutation.value
    · simpa [same] using collected.ordered table
  · intro table key
    rw [written_append_singleton]
    by_cases same : table = mutation.table
    · subst same
      simp [lookup_put, collected.written]
    · simp [same, collected.written]
  · intro accounted
    have before := collected.charge accounted
    have recounted := recharge_eq_ok recharged
    have moved := totalCharge_put setting.layout
      (fun table => putAll compare (pending.entries table) (tables table).entries)
      mutation.table mutation.key mutation.value ((tables mutation.table).ordered.putAll _)
    rw [lookup_putAll (collected.ordered mutation.table), ← get_eq_lookup] at moved
    have changed : (fun table => putAll compare (Function.update pending.entries mutation.table
          (put compare mutation.key mutation.value (pending.entries mutation.table)) table)
          (tables table).entries) =
        Function.update (fun table => putAll compare (pending.entries table) (tables table).entries)
          mutation.table (put compare mutation.key mutation.value
            (putAll compare (pending.entries mutation.table) (tables mutation.table).entries)) := by
      funext table
      rw [Function.apply_update fun table rows => putAll compare rows (tables table).entries]
      exact congrArg (update _ _ · _) (putAll_put (collected.ordered _) (tables _).ordered _ _)
    dsimp only
    rw [changed]
    omega

/-- The overlay of a view is charged for what it holds, and whatever it holds leaves the room of
one more insertion. -/
structure Accounted (setting : Setting) (tables : OverlayTables) (charged : Nat) : Prop where
  charge : charged = totalCharge setting.layout fun table => (tables table).entries
  room : (∃ table, (tables table).entries ≠ []) →
    charged + setting.layout.nodePlanBytes ≤ maxCompositeOverlayBytes

/-- Accepted mutations leave the last change at each key. -/
theorem applyMutationsAtomically_eq_ok
    (applied : applyMutationsAtomically setting ledger tables charged mutations base maximum =
      .ok (after, charge)) : (∀ table key, (after table).get key =
      (written mutations table key).or ((tables table).get key)) ∧
    (charged = totalCharge setting.layout (fun table => (tables table).entries) →
      charge = totalCharge setting.layout fun table => (after table).entries) ∧
    (mutations ≠ [] → charge ≤ maximum) := by
  simp only [applyMutationsAtomically, bind_eq_ok, Except.ok.injEq, Prod.mk.injEq] at applied
  obtain ⟨_, _, pending, checked, _, inserted, rfl, rfl⟩ := applied
  have held : Collected setting tables charged pending mutations ∧
      (mutations ≠ [] → pending.candidateCharge ≤ maximum) := by
    have kept := foldlM_invariant
      (P := fun pending seen => Collected setting tables charged pending (seen.map Prod.fst) ∧
        (seen ≠ [] → pending.candidateCharge ≤ maximum))
      (by
        rintro state seen ⟨mutation, index⟩ next ⟨collected, _⟩ moved
        obtain ⟨grown, fits⟩ := collected.applyPending moved
        rw [map_append]
        exact ⟨grown, fun _ => fits⟩)
      ⟨collected_nil tables charged, fun nonempty => absurd rfl nonempty⟩ checked
    simpa [zipIdx_map_fst] using kept
  obtain ⟨collected, fits⟩ := held
  have entries := insertAll_eq_ok inserted
  refine ⟨?_, ?_, fits⟩
  · intro table key
    rw [get_eq_lookup, entries, lookup_putAll (collected.ordered table),
      collected.written, get_eq_lookup]
  · intro accounted
    rw [collected.charge accounted]
    congr 1
    funext table
    exact (entries table).symm

variable {target : PersistentOverlayMap Bytes OverlayValue}

theorem get_update_put (puts : target.entries = put compare key value (tables table).entries)
    (other : CompositeTableV1) (otherKey : Bytes) :
      (Function.update tables table target other).get otherKey =
      if other = table ∧ otherKey = key then some value else (tables other).get otherKey := by
  by_cases same : other = table
  · subst same
    rw [update_self, get_eq_lookup, puts, lookup_put, get_eq_lookup]
    simp
  · rw [update_of_ne same, if_neg fun both => same both.1]

/-- One entry is replaced and the charge follows. -/
theorem Accounted.put (accounted : Accounted setting tables charged)
    (recharged : recharge setting charged key ((tables table).get key) value = .ok charge)
    (fits : charge + setting.layout.nodePlanBytes ≤ maxCompositeOverlayBytes)
    (puts : target.entries = SortedRows.put compare key value (tables table).entries) :
    Accounted setting (Function.update tables table target) charge := by
  refine ⟨?_, fun _ => fits⟩
  have recounted := recharge_eq_ok recharged
  have moved := totalCharge_put setting.layout (fun table => (tables table).entries) table key value
    (tables table).ordered
  rw [← get_eq_lookup] at moved
  have changed : (fun other => (Function.update tables table target other).entries) =
      Function.update (fun table => (tables table).entries) table
        (SortedRows.put compare key value (tables table).entries) := by
    funext other
    rw [Function.apply_update (fun _ => PersistentOverlayMap.entries), puts]
  rw [changed]
  have before := accounted.charge
  omega

end Entries

variable {table : CompositeTableV1} {representation : Bytes}

section Growth

variable {α : Type} {means : Bytes → α}

variable {mutations : List CompositeMutationV1}

theorem written_eq_none : written mutations table key = none ↔
      (table, key) ∉ mutations.map fun mutation => (mutation.table, mutation.key) := by
  induction mutations using List.reverseRecOn with
  | nil => simp [written]
  | append_singleton earlier last ih =>
    rw [written_append_singleton]
    split
    · next same => simp [same]
    · next apart => simpa [apart] using ih

/-- The tables after a frame hold a value for each change the frame has made, and are otherwise as
before. `means` is what a value stands for: a stage may hold another value that means the same. -/
structure Grows (means : Bytes → α) (before after : OverlayTables)
    (mutations : List CompositeMutationV1) : Prop where
  untouched : ∀ table key, written mutations table key = none →
    (after table).get key = (before table).get key
  touched : ∀ table key change, written mutations table key = some change →
    ∃ value, (after table).get key = some value ∧ value.map means = change.map means

theorem grows_nil (tables : OverlayTables) : Grows means tables tables [] :=
  ⟨fun _ _ _ => rfl, fun _ _ _ impossible => nomatch impossible⟩

theorem grows_of_get {before after : OverlayTables} (get : ∀ table key, (after table).get key =
      (written mutations table key).or ((before table).get key)) :
      Grows means before after mutations := by
  constructor
  · intro table key untouched
    rw [get, untouched, Option.none_or]
  · intro table key change touched
    exact ⟨change, by rw [get, touched, Option.some_or], rfl⟩

variable {target : PersistentOverlayMap Bytes OverlayValue} {before tables : OverlayTables}

/-- One more mutation puts its value. -/
theorem Grows.append
    (grows : Grows means before tables mutations) (mutation : CompositeMutationV1)
    (puts : target.entries =
      put compare mutation.key mutation.value (tables mutation.table).entries) :
    Grows means before (Function.update tables mutation.table target)
    (mutations ++ [mutation]) := by
  constructor
  · intro table key untouched
    rw [written_append_singleton] at untouched
    rw [get_update_put puts]
    split at untouched
    · cases untouched
    · next apart =>
      rw [if_neg apart]
      exact grows.untouched table key untouched
  · intro table key change touched
    rw [written_append_singleton] at touched
    rw [get_update_put puts]
    split at touched
    · next same =>
      cases touched
      rw [if_pos same]
      exact ⟨mutation.value, rfl, rfl⟩
    · next apart =>
      rw [if_neg apart]
      exact grows.touched table key change touched

/-- A staged value is replaced by one that means the same. -/
theorem Grows.represent (grows : Grows means before tables mutations)
    (member : mutation ∈ mutations) {value : Bytes}
    (holds : (tables mutation.table).get mutation.key = some (some value))
    (represents : means representation = means value) (puts : target.entries =
      put compare mutation.key (some representation) (tables mutation.table).entries) :
    Grows means before (Function.update tables mutation.table target) mutations := by
  constructor
  · intro table key untouched
    rw [get_update_put puts]
    split
    · next same =>
      obtain ⟨rfl, rfl⟩ := same
      exact absurd (mem_map.mpr ⟨mutation, member, rfl⟩) (written_eq_none.mp untouched)
    · exact grows.untouched table key untouched
  · intro table key change touched
    rw [get_update_put puts]
    split
    · next same =>
      obtain ⟨rfl, rfl⟩ := same
      obtain ⟨current, isCurrent, means⟩ := grows.touched _ _ change touched
      rw [holds] at isCurrent
      cases isCurrent
      refine ⟨some representation, rfl, ?_⟩
      rw [← means, Option.map_some, Option.map_some, represents]
    · exact grows.touched table key change touched

end Growth

variable {mutations : List CompositeMutationV1}

section Lineage

variable {setting : Setting} {ledger : Ledger}

/-- The keys a frame has changed become one more node of the lineage. -/
structure LineageGrows (ledger : Ledger) (before after : OverlayLineage)
    (mutations : List CompositeMutationV1) : Prop where
  same : mutations = [] → after = before
  node : mutations ≠ [] → ∃ allocation, ledger.lineage = some allocation ∧
    after = ⟨allocation, mutations.map fun mutation => (mutation.table, mutation.key)⟩ :: before

theorem overlayLineageSuccessor_eq_ok {predecessor lineage : OverlayLineage}
    {predecessorBytes lineageBytes : Nat}
    (succeeded : overlayLineageSuccessor setting ledger predecessor predecessorBytes mutations =
      .ok (lineage, lineageBytes)) : LineageGrows ledger predecessor lineage mutations := by
  unfold overlayLineageSuccessor at succeeded
  split at succeeded
  · next none =>
    cases succeeded
    exact ⟨fun _ => rfl, fun some => absurd none some⟩
  · next some =>
    simp only [bind_eq_ok, require_eq_ok, okOr_eq_ok, exists_const, Except.ok.injEq,
      Prod.mk.injEq] at succeeded
    obtain ⟨_, _, _, _, _, allocation, isAllocation, rfl, rfl⟩ := succeeded
    exact ⟨fun none => absurd none some, fun _ => ⟨allocation, isAllocation, rfl⟩⟩

end Lineage

/-- What an accepted frame does to a view, whichever way it was accepted. -/
structure Advances {α : Type} (setting : Setting) (means : Bytes → α) (ledger : Ledger)
    (view after : FrozenCompositeOverlay) (frame : CompositeFrameV1) : Prop where
  checkpoint : after.checkpoint = view.checkpoint
  application : after.publishedApplication = frame.coveredApplication
  administration : after.publishedAdministration = frame.coveredAdministration
  hash : after.terminalFrameHash = frame.frameHash
  transitionCount : after.transitionCount = view.transitionCount + frame.transitionCount
  encodedFrameBytes : after.encodedFrameBytes = view.encodedFrameBytes + frame.encodedBytes
  lineage : LineageGrows ledger view.lineage after.lineage frame.mutations
  grows : Grows means view.tables after.tables frame.mutations
  accounted : Accounted setting view.tables view.chargedBytes →
    Accounted setting after.tables after.chargedBytes

section Frames

variable {α : Type} {means : Bytes → α} {setting : Setting} {ledger : Ledger}
  {frame : CompositeFrameV1} {base : CompositeViewBase}

open CompositeOverlayBuilder in
theorem applyFrame_eq_ok {view : FrozenCompositeOverlay} {builder : CompositeOverlayBuilder}
    (applied : applyFrame setting ledger frame base (fromPublished view) = (.ok ⟨⟩, builder)) :
    Advances setting means ledger view builder.freeze frame := by
  simp only [applyFrame, current_bind, check_bind_eq_ok, update_bind, okOr_eq_ok,
    checkedAdd_eq_some] at applied
  obtain ⟨_, _, _, _, _, _, ⟨lineage, lineageBytes⟩, linked, maximum, isMaximum, ⟨tables, charge⟩,
    changed, _, ⟨_, rfl⟩, _, ⟨_, rfl⟩, updated⟩ := applied
  obtain ⟨_, rfl⟩ := Prod.mk.inj updated
  obtain ⟨get, charged, fits⟩ := applyMutationsAtomically_eq_ok changed
  refine ⟨rfl, rfl, rfl, rfl, rfl, rfl, overlayLineageSuccessor_eq_ok linked, grows_of_get get, ?_⟩
  intro accounted
  refine ⟨charged accounted.charge, fun nonempty => ?_⟩
  simp only [Option.bind_eq_some_iff, checkedSub_eq_some] at isMaximum
  obtain ⟨_, ⟨_, rfl⟩, _, rfl⟩ := isMaximum
  by_cases none : frame.mutations = []
  · have same : ∀ table, (tables table).entries = (view.tables table).entries := by
      intro table
      refine (tables table).ordered.ext (view.tables table).ordered fun key => ?_
      have unchanged := get table key
      rw [none, get_eq_lookup, get_eq_lookup] at unchanged
      exact unchanged
    have charges := charged accounted.charge
    simp only [CompositeOverlayBuilder.freeze, same] at nonempty charges ⊢
    have room := accounted.room nonempty
    have before := accounted.charge
    omega
  · have bounded := fits none
    change charge + _ ≤ _
    omega

open CompositeOverlayBuilder in
/-- A refused frame leaves the builder as it was: what is checked after the first update cannot
fail. -/
theorem keeps_applyFrame (builder : CompositeOverlayBuilder) :
    Keeps (applyFrame setting ledger frame base) builder := by
  refine keeps_current_bind (keeps_check_bind fun _ identified => ?_)
  simp only [validateFrameIdentity, require_eq_ok] at identified
  obtain ⟨_, _, _, _, transitions, bytes⟩ := identified
  refine keeps_check_bind fun _ _ => keeps_check_bind fun _ _ => keeps_check_bind fun _ _ =>
    keeps_check_bind fun _ _ => keeps_check_bind fun _ _ => ?_
  have counted : checkedAdd builder.transitionCount frame.transitionCount =
      some (builder.transitionCount + frame.transitionCount) := by
    rw [checkedAdd_eq_some]
    exact ⟨lt_of_le_of_lt transitions (by decide), rfl⟩
  have measured : checkedAdd builder.encodedFrameBytes frame.encodedBytes =
      some (builder.encodedFrameBytes + frame.encodedBytes) := by
    rw [checkedAdd_eq_some]
    exact ⟨lt_of_le_of_lt bytes (by decide), rfl⟩
  rw [counted, measured]
  refine (keeps_update _).bind ?_
  rintro ⟨⟩ between _
  exact ⟨⟨⟩, _, rfl⟩

end Frames

section Stages

variable {α : Type} {means : Bytes → α} {setting : Setting} {ledger : Ledger}
  {mutation : CompositeMutationV1} {base : CompositeViewBase}

open CompositeMutationStage

variable {stage after : CompositeMutationStage}

theorem insertInto_eq_ok {value : OverlayValue}
    (inserted : insertInto ledger table key value stage = (.ok ⟨⟩, after)) :
    ∃ target, target.entries = put compare key value (stage.tables table).entries ∧
      after = { stage with tables := Function.update stage.tables table target } := by
  obtain ⟨target, ran, rfl⟩ := onPart_eq_ok.mp inserted
  exact ⟨target, entries_of_insert ran, rfl⟩

theorem keeps_insertInto (table : CompositeTableV1) (key : Bytes) (value : OverlayValue)
    (stage : CompositeMutationStage) : Keeps (insertInto ledger table key value) stage := by
  refine Keeps.onPart ?_ (keeps_insert _ _ _ _)
  rw [update_eq_self]

/-- What a stage has become of the view it was forked from. -/
structure Stages (setting : Setting) (means : Bytes → α) (view : FrozenCompositeOverlay)
    (stage : CompositeMutationStage) : Prop where
  forked : stage = { CompositeMutationStage.new view with
    tables := stage.tables
    chargedBytes := stage.chargedBytes
    mutations := stage.mutations
    stagedLineageBytes := stage.stagedLineageBytes }
  grows : Grows means view.tables stage.tables stage.mutations
  accounted : Accounted setting view.tables view.chargedBytes →
    Accounted setting stage.tables stage.chargedBytes

theorem stages_new (view : FrozenCompositeOverlay) :
    Stages setting means view (CompositeMutationStage.new view) :=
  ⟨rfl, grows_nil view.tables, fun accounted => accounted⟩

variable {view : FrozenCompositeOverlay}

section

variable (stages : Stages setting means view stage)

include stages

open CompositeMutationStage

variable {observed : Option Bytes}

theorem Stages.applyAfterCurrentValidation
    (applied :
      applyAfterCurrentValidation setting ledger mutation observed stage = (.ok ⟨⟩, after)) :
    Stages setting means view after ∧ after.mutations = stage.mutations ++ [mutation] := by
  simp only [CompositeMutationStage.applyAfterCurrentValidation, current_bind, check_bind_eq_ok,
    validateCharge, require_eq_ok, exists_const] at applied
  obtain ⟨_, _, _, _, _, _, staged, _, charge, recharged, fits, _, changed⟩ := applied
  obtain ⟨_, between, inserted, updated⟩ := call_bind_eq_ok.mp changed
  obtain ⟨target, puts, rfl⟩ := insertInto_eq_ok inserted
  obtain ⟨_, rfl⟩ := Prod.mk.inj updated
  have room : charge + setting.layout.nodePlanBytes ≤ maxCompositeOverlayBytes := by omega
  refine ⟨⟨?_, stages.grows.append mutation puts, ?_⟩, rfl⟩
  · rw [stages.forked]
  · intro accounted
    exact (stages.accounted accounted).put recharged room puts

theorem Stages.apply
    (applied : CompositeMutationStage.apply setting ledger mutation base stage = (.ok ⟨⟩, after)) :
    Stages setting means view after ∧ after.mutations = stage.mutations ++ [mutation] := by
  simp only [CompositeMutationStage.apply, current_bind, check_bind_eq_ok] at applied
  obtain ⟨_, _, _, _, applied⟩ := applied
  exact stages.applyAfterCurrentValidation applied

theorem Stages.applyWithObservedCurrent
    (applied : applyWithObservedCurrent setting ledger mutation observed base
      stage = (.ok ⟨⟩, after)) :
    Stages setting means view after ∧ after.mutations = stage.mutations ++ [mutation] := by
  simp only [CompositeMutationStage.applyWithObservedCurrent, check_bind_eq_ok] at applied
  obtain ⟨_, _, _, _, applied⟩ := applied
  exact stages.applyAfterCurrentValidation applied

theorem Stages.representStaged {changed : Bool}
    (represents : ∀ mutation value, stage.mutations[index]? = some mutation →
      mutation.value = some value → means representation = means value)
    (represented : representStaged setting ledger index representation stage =
      (.ok changed, after)) :
    Stages setting means view after ∧ after.mutations = stage.mutations := by
  simp only [CompositeMutationStage.representStaged, current_bind, check_bind_eq_ok,
    okOr_eq_ok] at represented
  obtain ⟨mutation, isMutation, represented⟩ := represented
  cases isValue : mutation.value with
  | none =>
    rw [isValue] at represented
    cases represented
    exact ⟨stages, rfl⟩
  | some value =>
    cases isHash : mutation.expectedHash with
    | some expected =>
      rw [isValue, isHash] at represented
      cases represented
      exact ⟨stages, rfl⟩
    | none =>
      rw [isValue, isHash] at represented
      obtain ⟨_, _, represented⟩ := check_bind_eq_ok.mp represented
      by_cases holds : (stage.tables mutation.table).get mutation.key = some (some value)
      · simp only [if_pos holds, check_bind_eq_ok, validateCharge, require_eq_ok,
          exists_const] at represented
        obtain ⟨charge, recharged, fits, _, changes⟩ := represented
        obtain ⟨_, between, inserted, updated⟩ := call_bind_eq_ok.mp changes
        obtain ⟨target, puts, rfl⟩ := insertInto_eq_ok inserted
        obtain ⟨_, rfl⟩ := Prod.mk.inj updated
        have room : charge + setting.layout.nodePlanBytes ≤ maxCompositeOverlayBytes := by omega
        refine ⟨⟨?_, ?_, ?_⟩, rfl⟩
        · rw [stages.forked]
        · exact stages.grows.represent (mem_of_getElem? isMutation) holds
            (represents mutation value isMutation isValue) puts
        · intro accounted
          rw [← holds] at recharged
          exact (stages.accounted accounted).put recharged room puts
      · rw [if_neg holds] at represented
        cases represented
        exact ⟨stages, rfl⟩

end

section

variable (stage : CompositeMutationStage)

/-- Nothing after the insertion can be refused. -/
theorem keeps_applyAfterCurrentValidation (observed : Option Bytes) :
    Keeps (applyAfterCurrentValidation setting ledger mutation observed) stage := by
  refine keeps_current_bind (keeps_check_bind fun _ _ => keeps_check_bind fun _ _ =>
    keeps_check_bind fun _ _ => keeps_check_bind fun _ _ => keeps_check_bind fun _ _ =>
    keeps_check_bind fun _ _ => keeps_check_bind fun _ _ => ?_)
  refine (keeps_insertInto _ _ _ stage).bind ?_
  rintro ⟨⟩ between _
  exact ⟨⟨⟩, _, rfl⟩

theorem keeps_apply : Keeps (CompositeMutationStage.apply setting ledger mutation base) stage :=
  keeps_current_bind (keeps_check_bind fun _ _ => keeps_check_bind fun _ _ =>
    keeps_applyAfterCurrentValidation stage _)

theorem keeps_applyWithObservedCurrent (observed : Option Bytes) :
    Keeps (applyWithObservedCurrent setting ledger mutation observed base) stage :=
  keeps_check_bind fun _ _ => keeps_check_bind fun _ _ =>
    keeps_applyAfterCurrentValidation stage observed

theorem keeps_representStaged (index : Nat) (representation : Bytes) :
    Keeps (representStaged setting ledger index representation) stage := by
  refine keeps_current_bind (keeps_check_bind fun _ _ => ?_)
  split
  · refine keeps_check_bind fun _ _ => ?_
    split
    · refine keeps_check_bind fun _ _ => keeps_check_bind fun _ _ => keeps_check_bind fun _ _ => ?_
      refine (keeps_insertInto _ _ _ stage).bind ?_
      rintro ⟨⟩ between _
      exact ⟨true, _, rfl⟩
    · exact keeps_pure false
  · exact keeps_pure false

end

variable {view after : FrozenCompositeOverlay} {stage : CompositeMutationStage}

section

variable (stages : Stages setting means view stage)

include stages

variable {frame : CompositeFrameV1}

theorem sealChecked_eq_ok (same : frame.mutations = stage.mutations)
    (closed : stage.sealChecked setting ledger frame = .ok after) :
    Advances setting means ledger view after frame := by
  simp only [sealChecked, bind_eq_ok, require_eq_ok, okOr_eq_ok, checkedAdd_eq_some, exists_const,
    Except.ok.injEq] at closed
  obtain ⟨_, ⟨_, rfl⟩, _, _, ⟨_, rfl⟩, _, ⟨lineage, lineageBytes⟩, linked, _, rfl⟩ := closed
  have forked := stages.forked
  have grown := overlayLineageSuccessor_eq_ok linked
  refine ⟨?_, rfl, rfl, rfl, ?_, ?_, ?_, ?_, stages.accounted⟩
  · rw [forked]; rfl
  · rw [forked]; rfl
  · rw [forked]; rfl
  · rw [forked] at grown
    exact grown
  · rw [same]
    exact stages.grows

theorem sealFrame_eq_ok (closed : stage.sealFrame setting ledger frame = .ok after) :
    Advances setting means ledger view after frame := by
  simp only [sealFrame, bind_eq_ok, require_eq_ok, exists_const] at closed
  obtain ⟨_, _, ⟨_, _, _, _, same⟩, checked⟩ := closed
  exact sealChecked_eq_ok stages same checked

theorem sealEncodedFrameWithMutations_eq_ok {identity : CompositeFrameV1}
    (closed :
      stage.sealEncodedFrameWithMutations setting ledger identity = .ok (after, mutations)) :
    Advances setting means ledger view after { identity with mutations := mutations } := by
  simp only [sealEncodedFrameWithMutations, CompositeFrameV1.new, bind_eq_ok, require_eq_ok,
    exists_const, Except.ok.injEq, Prod.mk.injEq] at closed
  obtain ⟨_, _, _, frame, ⟨_, _, _, _, _, _, rfl⟩, view, checked, rfl, rfl⟩ := closed
  exact sealChecked_eq_ok stages rfl checked

end

end Stages

end CompositeFrames
