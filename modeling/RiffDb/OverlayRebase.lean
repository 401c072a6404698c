import RiffDb.CompositeReads

/-!
# Moving a view to a newer checkpoint

Once a checkpoint holds what a covered view reads, a later view is moved onto it: it walks its
lineage back to the covered view and keeps, of the keys on the way, those whose entry differs from
the covered one. The moved view has no lineage, so the keys it carries over are not found by a walk.

So the covered view of a rebase is one that was published after the rebase before it, as the
engine's checkpoint installation captures it. In every run of frames and such rebases each rebase
succeeds and every view reads as the sequential state. -/

namespace OverlayRebase

open ByteWire CheckedCode SortedRows OverlayMap CompositeOverlay CompositeFrames
  PersistentOverlayMap OverlayLineageNode List Function
open CompositeReads OverlayMap.StorageValueError

def sameLineage : OverlayLineage → OverlayLineage → Bool
  | [], [] => true
  | left :: _, right :: _ => left.allocation = right.allocation
  | _, _ => false

/-- The set of changed keys, table by table in key order. -/
abbrev Touched := CompositeTableV1 → List (Bytes × Unit)

def Touched.insert (touched : Touched) (entry : CompositeTableV1 × Bytes) : Touched :=
  Function.update touched entry.1 (put compare entry.2 () (touched entry.1))

def Touched.toList (touched : Touched) : List (CompositeTableV1 × Bytes) :=
  CompositeTableV1.all.flatMap fun table => (touched table).map fun row => (table, row.1)

/-- Walk the lineage back to the covered one. -/
def walk (covered : OverlayLineage) : OverlayLineage → Touched → Except StorageValueError Touched
  | [], touched =>
    if sameLineage [] covered then .ok touched else .error identityMismatch
  | node :: older, touched =>
    if sameLineage (node :: older) covered then .ok touched
    else walk covered older (node.keys.foldl Touched.insert touched)

/-- The entries that are carried over, and their charge. -/
structure Retained where
  entries : CompositeTableV1 → List (Bytes × OverlayValue)
  ordered : ∀ table, Ascending compare (entries table)
  chargedBytes : Nat

namespace Retained

def empty : Retained := ⟨fun _ => [], fun _ => ascending_nil, 0⟩

theorem ordered_update {entries : CompositeTableV1 → List (Bytes × OverlayValue)}
    (ordered : ∀ table, Ascending compare (entries table)) (table : CompositeTableV1) (key : Bytes)
    (value : OverlayValue) (other : CompositeTableV1) :
    Ascending compare (Function.update entries table
      (put compare key value (entries table)) other) := by
  by_cases same : other = table
  · subst same
    rw [update_self]
    exact (ordered other).put key value
  · rw [update_of_ne same]
    exact ordered other

def keep (retained : Retained) (table : CompositeTableV1) (key : Bytes) (value : OverlayValue)
    (charge : Nat) : Retained :=
  ⟨_, ordered_update retained.ordered table key value, charge⟩

end Retained

section Rebase

variable (setting : Setting) (view covered : FrozenCompositeOverlay)

/-- An entry that equals the covered one is in the checkpoint already. -/
def retainKey (retained : Retained) (entry : CompositeTableV1 × Bytes) :
    Except StorageValueError Retained := do
  let value ← okOr ((view.tables entry.1).get entry.2) identityMismatch
  if (covered.tables entry.1).get entry.2 = some value then .ok retained
  else do
    let added ← entryCharge setting.layout entry.2 value
    let charge ← okOr (checkedAdd retained.chargedBytes added) limitExceeded
    require (charge + setting.layout.nodePlanBytes ≤ maxCompositeOverlayBytes) limitExceeded
    .ok (retained.keep entry.1 entry.2 value charge)

/-- The checkpoint identity of the state the covered view reads. -/
def Identifies (checkpoint : CompositeCheckpointV1) : Prop :=
  checkpoint.databaseId = covered.checkpoint.databaseId ∧
  checkpoint.historyIncarnation = covered.checkpoint.historyIncarnation ∧
  checkpoint.registryDigest = covered.checkpoint.registryDigest ∧
  checkpoint.applicationFrontier = covered.publishedApplication ∧
  checkpoint.administrationFrontier = covered.publishedAdministration ∧
  checkpoint.terminalFrameHash = covered.terminalFrameHash

instance (checkpoint : CompositeCheckpointV1) : Decidable (Identifies covered checkpoint) :=
  inferInstanceAs (Decidable (_ ∧ _))

/-- Both views are accounted in one ledger, and each node of the new tables is registered there. -/
def rebaseAfter (ledger : Ledger) (checkpoint : CompositeCheckpointV1) :
    Except StorageValueError FrozenCompositeOverlay := do
  require (view.checkpoint = covered.checkpoint ∧ Identifies covered checkpoint ∧
    covered.transitionCount ≤ view.transitionCount ∧
    covered.encodedFrameBytes ≤ view.encodedFrameBytes) identityMismatch
  validateOverlayFamily ledger
  let touched ← walk covered.lineage view.lineage fun _ => []
  let retained ← touched.toList.foldlM (retainKey setting view covered) .empty
  require ((CompositeTableV1.all.all fun table =>
    (List.range (retained.entries table).length).all ledger.member) = true) limitExceeded
  .ok
    { checkpoint := checkpoint
      publishedApplication := view.publishedApplication
      publishedAdministration := view.publishedAdministration
      terminalFrameHash := view.terminalFrameHash
      transitionCount := view.transitionCount - covered.transitionCount
      encodedFrameBytes := view.encodedFrameBytes - covered.encodedFrameBytes
      chargedBytes := retained.chargedBytes
      tables := fun table =>
        PersistentOverlayMap.fromSortedEntries (retained.entries table) (retained.ordered table)
      lineage := []
      lineageBytes := 0 }

end Rebase

variable {table : CompositeTableV1} {key : Bytes}

section Walk

theorem lookup_foldl_insert (keys : List (CompositeTableV1 × Bytes)) (touched : Touched)
    (table : CompositeTableV1) (key : Bytes) :
      ((keys.foldl Touched.insert touched) table).lookup key =
      if (table, key) ∈ keys then some () else (touched table).lookup key := by
  induction keys generalizing touched with
  | nil => simp
  | cons first rest ih =>
    rw [foldl_cons, ih]
    by_cases later : (table, key) ∈ rest
    · simp [later]
    · rw [if_neg later, Touched.insert]
      by_cases sameTable : table = first.1
      · subst sameTable
        rw [update_self, lookup_put]
        simp [later, Prod.ext_iff]
      · rw [update_of_ne sameTable, if_neg]
        simp [later, Prod.ext_iff, sameTable]

variable {touched : Touched}

section

variable (ordered : ∀ table, Ascending compare (touched table))

include ordered

theorem ascending_foldl_insert (keys : List (CompositeTableV1 × Bytes)) (table : CompositeTableV1) :
    Ascending compare ((keys.foldl Touched.insert touched) table) := by
  induction keys generalizing touched with
  | nil => exact ordered table
  | cons first rest ih =>
    refine ih fun other => ?_
    rw [Touched.insert]
    by_cases same : other = first.1
    · subst same
      rw [update_self]
      exact (ordered _).put _ _
    · rw [update_of_ne same]
      exact ordered other

theorem mem_toList : (table, key) ∈ touched.toList ↔ (touched table).lookup key = some () := by
  rw [← (ordered table).mem_iff]
  constructor
  · intro member
    obtain ⟨_, _, inTable⟩ := mem_flatMap.mp member
    obtain ⟨⟨_, ⟨⟩⟩, inRows, same⟩ := mem_map.mp inTable
    cases same
    exact inRows
  · intro inRows
    exact mem_flatMap.mpr ⟨table, table.mem_all, mem_map.mpr ⟨(key, ()), inRows, rfl⟩⟩

theorem nodup_toList : touched.toList.Nodup := by
  refine nodup_flatMap.mpr ⟨?_, ?_⟩
  · intro table _
    refine (pairwise_map.mpr ?_)
    refine List.Pairwise.imp ?_ (ordered table)
    intro earlier later below same
    exact ne_of_lt below (Prod.mk.inj same).2
  · refine List.Pairwise.imp ?_ CompositeTableV1.nodup_all
    rintro left right apart ⟨table, key⟩ inLeft inRight
    simp only [mem_map, Prod.mk.injEq] at inLeft inRight
    obtain ⟨_, _, rfl, _⟩ := inLeft
    obtain ⟨_, _, rfl, _⟩ := inRight
    exact apart rfl

end

theorem sameLineage_self (lineage : OverlayLineage) : sameLineage lineage lineage = true := by
  cases lineage with
  | nil => rfl
  | cons node older => simp [sameLineage]

variable {newer covered : OverlayLineage}

/-- A newer node is not the covered one: no two nodes in use are at the same place. -/
theorem sameLineage_newer {node : OverlayLineageNode}
    (distinct : ((node :: newer ++ covered).map allocation).Nodup) :
    sameLineage (node :: newer ++ covered) covered = false := by
  cases covered with
  | nil => rfl
  | cons head older =>
    have apart : node.allocation ≠ head.allocation := by
      intro same
      refine (nodup_cons.mp distinct).1 ?_
      simp [same]
    simpa [sameLineage] using apart

/-- The walk collects the keys of the nodes it passes. -/
theorem walk_append (distinct : ((newer ++ covered).map allocation).Nodup) (touched : Touched) :
    walk covered (newer ++ covered) touched =
      .ok ((newer.flatMap OverlayLineageNode.keys).foldl Touched.insert touched) := by
  induction newer generalizing touched with
  | nil =>
    rw [nil_append]
    cases covered with
    | nil => rfl
    | cons node older => rw [walk, if_pos (sameLineage_self _)]; rfl
  | cons node newer ih =>
    have apart := sameLineage_newer distinct
    rw [cons_append] at apart ⊢
    rw [walk, if_neg (by simp [apart]), ih (nodup_cons.mp distinct).2, flatMap_cons, foldl_append]

end Walk

section Retention

variable {setting : Setting} {view covered : FrozenCompositeOverlay}

/-- An entry is carried over. -/
def Changed (view covered : FrozenCompositeOverlay) (table : CompositeTableV1)
    (key : Bytes) : Prop :=
  (covered.tables table).get key ≠ (view.tables table).get key

instance (table : CompositeTableV1) (key : Bytes) : Decidable (Changed view covered table key) :=
  inferInstanceAs (Decidable (¬ _))

/-- What has been carried over, once some of the keys were visited. -/
structure Retains (setting : Setting) (view covered : FrozenCompositeOverlay) (retained : Retained)
    (seen : List (CompositeTableV1 × Bytes)) : Prop where
  lookup : ∀ table key, (retained.entries table).lookup key =
    if (table, key) ∈ seen ∧ Changed view covered table key
      then (view.tables table).get key else none
  charge : seen.Nodup → retained.chargedBytes = totalCharge setting.layout retained.entries
  room : (∃ table, retained.entries table ≠ []) →
    retained.chargedBytes + setting.layout.nodePlanBytes ≤ maxCompositeOverlayBytes

theorem totalCharge_nil (layout : OverlayLayout) : totalCharge layout (fun _ => []) = 0 := by
  simp [totalCharge]

theorem retains_empty : Retains setting view covered .empty [] := by
  refine ⟨?_, ?_, ?_⟩
  · intro table key
    rw [if_neg (by simp)]
    rfl
  · intro _
    exact (totalCharge_nil setting.layout).symm
  · rintro ⟨table, nonempty⟩
    exact absurd rfl nonempty

variable {entry : CompositeTableV1 × Bytes}

theorem retainKey_cases {retained next : Retained}
    (kept : retainKey setting view covered retained entry = .ok next) :
    ∃ value, (view.tables entry.1).get entry.2 = some value ∧
      ((¬ Changed view covered entry.1 entry.2 ∧ next = retained) ∨
        (Changed view covered entry.1 entry.2 ∧ next = retained.keep entry.1 entry.2 value
            (retained.chargedBytes + weight setting.layout (entry.2, value)) ∧
          next.chargedBytes + setting.layout.nodePlanBytes ≤ maxCompositeOverlayBytes)) := by
  simp only [retainKey, bind_eq_ok, okOr_eq_ok] at kept
  obtain ⟨value, found, kept⟩ := kept
  refine ⟨value, found, ?_⟩
  split at kept
  · next same =>
    cases kept
    left
    exact ⟨fun changed => changed (same.trans found.symm), rfl⟩
  · next differs =>
    simp only [bind_eq_ok, okOr_eq_ok, checkedAdd_eq_some, require_eq_ok, exists_const,
      Except.ok.injEq] at kept
    obtain ⟨added, isAdded, charge, ⟨_, rfl⟩, fits, rfl⟩ := kept
    rw [rawEntryCharge_eq_ok setting.layout isAdded] at fits ⊢
    right
    exact ⟨fun same => differs (same.trans found), rfl, fits⟩

theorem lookup_keep (retained : Retained) (entry : CompositeTableV1 × Bytes) (value : OverlayValue)
    (charge : Nat) (table : CompositeTableV1) (key : Bytes) :
    ((retained.keep entry.1 entry.2 value charge).entries table).lookup key =
      if (table, key) = entry then some value else (retained.entries table).lookup key := by
  rw [Retained.keep]
  dsimp only
  by_cases sameTable : table = entry.1
  · subst sameTable
    rw [update_self, lookup_put]
    simp [Prod.ext_iff]
  · rw [update_of_ne sameTable, if_neg]
    simp [Prod.ext_iff, sameTable]

variable {seen : List (CompositeTableV1 × Bytes)} {retained : Retained}
variable {value : OverlayValue}

section

variable (retains : Retains setting view covered retained seen)

include retains

/-- A key that was not seen before adds its own charge. -/
theorem Retains.totalCharge_keep
    (distinct : (seen ++ [entry]).Nodup) (value : OverlayValue) (charge : Nat) :
    totalCharge setting.layout (retained.keep entry.1 entry.2 value charge).entries =
      retained.chargedBytes + weight setting.layout (entry.2, value) := by
  obtain ⟨distinctSeen, _, apart⟩ := nodup_append.mp distinct
  have fresh : entry ∉ seen := fun member => apart entry member entry (by simp) rfl
  have missing : (retained.entries entry.1).lookup entry.2 = none := by
    rw [retains.lookup, if_neg fun both => fresh both.1]
  have moved := totalCharge_put setting.layout retained.entries entry.1 entry.2 value
    (retained.ordered entry.1)
  rw [missing, Option.elim_none] at moved
  have before := retains.charge distinctSeen
  change totalCharge setting.layout (Function.update _ _ _) = _
  omega

theorem Retains.keep (found : (view.tables entry.1).get entry.2 = some value)
    (changed : Changed view covered entry.1 entry.2)
    (fits : retained.chargedBytes + weight setting.layout (entry.2, value) +
      setting.layout.nodePlanBytes ≤ maxCompositeOverlayBytes) :
    Retains setting view covered (retained.keep entry.1 entry.2 value
      (retained.chargedBytes + weight setting.layout (entry.2, value))) (seen ++ [entry]) := by
  refine ⟨?_, ?_, fun _ => fits⟩
  · intro table key
    rw [lookup_keep]
    by_cases same : (table, key) = entry
    · subst same
      rw [if_pos rfl, if_pos ⟨by simp, changed⟩, found]
    · rw [if_neg same, retains.lookup]
      simp [same]
  · intro distinct
    exact (retains.totalCharge_keep distinct value _).symm

theorem Retains.skip (unchanged : ¬ Changed view covered entry.1 entry.2) :
    Retains setting view covered retained (seen ++ [entry]) := by
  refine ⟨?_, ?_, retains.room⟩
  · intro table key
    rw [retains.lookup]
    by_cases same : (table, key) = entry
    · subst same
      rw [if_neg fun both => unchanged both.2, if_neg fun both => unchanged both.2]
    · simp [same]
  · intro distinct
    exact retains.charge (nodup_append.mp distinct).1

theorem Retains.retainKey {next : Retained}
    (kept : retainKey setting view covered retained entry = .ok next) :
    Retains setting view covered next (seen ++ [entry]) := by
  obtain ⟨value, found, ⟨unchanged, rfl⟩ | ⟨changed, rfl, fits⟩⟩ := retainKey_cases kept
  · exact retains.skip unchanged
  · exact retains.keep found changed fits

end

/-- Entries of the view are charged no more than the view. -/
theorem totalCharge_le (included :
    ∀ table key value, (retained.entries table).lookup key = some value →
      (view.tables table).get key = some value) : totalCharge setting.layout retained.entries ≤
      totalCharge setting.layout fun table => (view.tables table).entries := by
  refine sum_le_sum fun table _ => ?_
  refine sum_le_of_lookup (retained.ordered table) (view.tables table).ordered
    (weight setting.layout) ?_
  intro key value found
  have holds := included table key value found
  rw [get_eq_lookup] at holds
  exact holds

theorem Retains.included
    (retains : Retains setting view covered retained seen) (table : CompositeTableV1) (key : Bytes)
    (value : OverlayValue) (found : (retained.entries table).lookup key = some value) :
    (view.tables table).get key = some value := by
  rw [retains.lookup] at found
  split at found
  · exact found
  · cases found

/-- The retention succeeds on keys the view has entries for. -/
theorem retainKey_succeeds (accounted : Accounted setting view.tables view.chargedBytes)
    (retains : Retains setting view covered retained seen) (distinct : (seen ++ [entry]).Nodup)
    (found : (view.tables entry.1).get entry.2 = some value) :
    ∃ next, retainKey setting view covered retained entry = .ok next := by
  by_cases same : (covered.tables entry.1).get entry.2 = some value
  · exact ⟨retained, by simp [retainKey, found, same]⟩
  -- the entries with this one added are still entries of the view
  have bounded : totalCharge setting.layout (retained.keep entry.1 entry.2 value 0).entries ≤
      totalCharge setting.layout fun table => (view.tables table).entries := by
    refine totalCharge_le fun table key other isOther => ?_
    rw [lookup_keep] at isOther
    split at isOther
    · next isEntry =>
      cases isEntry
      cases isOther
      exact found
    · exact retains.included table key other isOther
  rw [retains.totalCharge_keep distinct] at bounded
  have nonempty : (view.tables entry.1).entries ≠ [] := by
    intro none
    rw [get_eq_lookup, none] at found
    cases found
  have room := accounted.room ⟨entry.1, nonempty⟩
  have words : maxCompositeOverlayBytes < 2 ^ 64 := by decide
  have fits : retained.chargedBytes + weight setting.layout (entry.2, value) +
      setting.layout.nodePlanBytes ≤ maxCompositeOverlayBytes := by
    have whole := accounted.charge
    omega
  have added : checkedAdd retained.chargedBytes (weight setting.layout (entry.2, value)) =
      some (retained.chargedBytes + weight setting.layout (entry.2, value)) := by
    rw [checkedAdd_eq_some]
    exact ⟨by omega, rfl⟩
  refine ⟨retained.keep entry.1 entry.2 value
    (retained.chargedBytes + weight setting.layout (entry.2, value)), ?_⟩
  rw [retainKey, found, okOr_some, ok_bind, if_neg same, entryCharge,
    rawEntryCharge_of_lt setting.layout (by omega), ok_bind, added, okOr_some, ok_bind,
    require_pos fits, ok_bind]

end Retention

section Runs

/-- The ledger registers whatever is asked. -/
def Grants (ledger : Ledger) : Prop := ledger.enabled = true ∧ ∀ index, ledger.member index = true

variable {α : Type} {means : Bytes → α} {setting : Setting}

/-- A new lineage node is not placed where one is in use. -/
def PlacesFresh (ledger : Ledger) (view : FrozenCompositeOverlay) : Prop :=
  ∀ node ∈ view.lineage, ledger.lineage ≠ some node.allocation

/-- The views published after a covered one, by frames alone. -/
inductive Descends (setting : Setting) (means : Bytes → α) (base : CompositeViewBase)
    (covered : FrozenCompositeOverlay) : FrozenCompositeOverlay → List CompositeFrameV1 → Prop
  | refl : Descends setting means base covered covered []
  | frame {view after : FrozenCompositeOverlay} {frames : List CompositeFrameV1}
      {frame : CompositeFrameV1} (ledger : Ledger) :
      Descends setting means base covered view frames → PlacesFresh ledger view →
      Accepts setting means base ledger view after frame →
      Descends setting means base covered after (frames ++ [frame])

/-- Runs of frames and rebases from a first checkpoint: the checkpoint in use, the view over it,
and all frames accepted since the start. -/
inductive Run (setting : Setting) (means : Bytes → α) (initial : TableRows) :
    CompositeViewBase → FrozenCompositeOverlay → List CompositeFrameV1 → Prop
  | start (base : CompositeViewBase) (checkpoint : CompositeCheckpointV1) :
      base.state = initial →
      Run setting means initial base (CompositeOverlayBuilder.new checkpoint).freeze []
  | frame {base : CompositeViewBase} {view after : FrozenCompositeOverlay}
      {frames : List CompositeFrameV1} {frame : CompositeFrameV1} (ledger : Ledger) :
      Run setting means initial base view frames → PlacesFresh ledger view →
      Accepts setting means base ledger view after frame →
      Run setting means initial base after (frames ++ [frame])
  | rebase {base newBase : CompositeViewBase} {covered view rebased : FrozenCompositeOverlay}
      {frames later : List CompositeFrameV1} (ledger : Ledger)
        (checkpoint : CompositeCheckpointV1) :
      Run setting means initial base covered frames →
      Descends setting means base covered view later →
      newBase.state = executeFrames initial frames →
      rebaseAfter setting view covered ledger checkpoint = .ok rebased →
      Run setting means initial newBase rebased (frames ++ later)

/-- What holds of every view of a run. -/
structure Sound (setting : Setting) (means : Bytes → α) (state target : TableRows)
    (view : FrozenCompositeOverlay) : Prop where
  reads : Reads means view.tables state target
  accounted : Accounted setting view.tables view.chargedBytes
  distinct : (view.lineage.map OverlayLineageNode.allocation).Nodup

/-- What holds between a covered view and a later one. -/
structure Since (covered view : FrozenCompositeOverlay) (newer : OverlayLineage) : Prop where
  checkpoint : view.checkpoint = covered.checkpoint
  transitionCount : covered.transitionCount ≤ view.transitionCount
  encodedFrameBytes : covered.encodedFrameBytes ≤ view.encodedFrameBytes
  lineage : view.lineage = newer ++ covered.lineage
  touched : ∀ table key, (table, key) ∈ newer.flatMap OverlayLineageNode.keys →
    ∃ value, (view.tables table).get key = some value
  untouched : ∀ table key, (table, key) ∉ newer.flatMap OverlayLineageNode.keys →
    (view.tables table).get key = (covered.tables table).get key

variable {ledger : Ledger} {mutations : List CompositeMutationV1} {view : FrozenCompositeOverlay}

theorem distinct_of_grows {after : OverlayLineage} (distinct : (view.lineage.map allocation).Nodup)
    (fresh : PlacesFresh ledger view) (grows : LineageGrows ledger view.lineage after mutations) :
    (after.map allocation).Nodup := by
  by_cases none : mutations = []
  · rw [grows.same none]
    exact distinct
  · obtain ⟨allocation, isAllocation, rfl⟩ := grows.node none
    refine nodup_cons.mpr ⟨?_, distinct⟩
    intro member
    obtain ⟨node, inUse, same⟩ := mem_map.mp member
    exact fresh node inUse (isAllocation.trans (congrArg some same.symm))

variable {base : CompositeViewBase}
variable {target : TableRows}

theorem Sound.frame {view after : FrozenCompositeOverlay} {frame : CompositeFrameV1}
    (sound : Sound setting means base.state target view) (fresh : PlacesFresh ledger view)
    (accepts : Accepts setting means base ledger view after frame) :
    Sound setting means base.state (executeFrame target frame) after :=
  have advances := accepts.advances
  ⟨sound.reads.grows advances.grows, advances.accounted sound.accounted,
    distinct_of_grows sound.distinct fresh advances.lineage⟩

theorem since_refl (view : FrozenCompositeOverlay) : Since view view [] :=
  ⟨rfl, Nat.le_refl _, Nat.le_refl _, rfl, fun _ _ impossible => (nomatch impossible),
    fun _ _ _ => rfl⟩

theorem exists_added {before after : OverlayLineage}
    (grows : LineageGrows ledger before after mutations) :
    ∃ added, after = added ++ before ∧ added.flatMap OverlayLineageNode.keys =
      mutations.map fun mutation => (mutation.table, mutation.key) := by
  by_cases none : mutations = []
  · exact ⟨[], grows.same none, by rw [none]; rfl⟩
  · obtain ⟨allocation, _, isAfter⟩ := grows.node none
    exact ⟨[_], isAfter, flatMap_singleton _ _⟩

theorem Since.frame {covered view after : FrozenCompositeOverlay} {newer : OverlayLineage}
    {frame : CompositeFrameV1} (since : Since covered view newer)
    (advances : Advances setting means ledger view after frame) :
      ∃ newest, Since covered after newest := by
  obtain ⟨added, isAfter, keys⟩ := exists_added advances.lineage
  refine ⟨added ++ newer, ?_⟩
  constructor
  · rw [advances.checkpoint, since.checkpoint]
  · have counted := since.transitionCount
    rw [advances.transitionCount]
    omega
  · have measured := since.encodedFrameBytes
    rw [advances.encodedFrameBytes]
    omega
  · rw [isAfter, since.lineage, append_assoc]
  · intro table key member
    cases change : written frame.mutations table key with
    | some changed =>
      obtain ⟨value, isValue, _⟩ := advances.grows.touched table key changed change
      exact ⟨value, isValue⟩
    | none =>
      have missing := written_eq_none.mp change
      rw [advances.grows.untouched table key change]
      rw [flatMap_append, mem_append, keys] at member
      exact since.touched table key (member.resolve_left missing)
  · intro table key missing
    rw [flatMap_append, mem_append, keys, not_or] at missing
    rw [advances.grows.untouched table key (written_eq_none.mpr missing.1)]
    exact since.untouched table key missing.2

theorem Descends.sound {covered view : FrozenCompositeOverlay} {later : List CompositeFrameV1}
    (sound : Sound setting means base.state target covered)
    (descends : Descends setting means base covered view later) :
    Sound setting means base.state (executeFrames target later) view ∧ ∃ newer,
      Since covered view newer := by
  induction descends with
  | refl => exact ⟨sound, [], since_refl covered⟩
  | frame ledger _ fresh accepts ih =>
    obtain ⟨soundView, newer, since⟩ := ih
    rw [executeFrames_append]
    exact ⟨soundView.frame fresh accepts, since.frame accepts.advances⟩

section Rebased

variable {covered view rebased : FrozenCompositeOverlay} {newer : OverlayLineage} {ledger : Ledger}
  {checkpoint : CompositeCheckpointV1}

/-- The keys a rebase visits. -/
def visited (newer : OverlayLineage) : List (CompositeTableV1 × Bytes) :=
  Touched.toList ((newer.flatMap OverlayLineageNode.keys).foldl Touched.insert fun _ => [])

theorem mem_visited :
    (table, key) ∈ visited newer ↔ (table, key) ∈ newer.flatMap OverlayLineageNode.keys := by
  rw [visited, mem_toList (ascending_foldl_insert (fun _ => ascending_nil) _), lookup_foldl_insert]
  split <;> simp_all

theorem nodup_visited (newer : OverlayLineage) : (visited newer).Nodup :=
  nodup_toList (ascending_foldl_insert (fun _ => ascending_nil) _)

section

variable (since : Since covered view newer)

include since

section

variable (distinct : (view.lineage.map allocation).Nodup)

include distinct

theorem walk_since : walk covered.lineage view.lineage (fun _ => []) =
      .ok ((newer.flatMap OverlayLineageNode.keys).foldl Touched.insert fun _ => []) := by
  rw [since.lineage] at distinct ⊢
  exact walk_append distinct _

/-- The tables of a rebased view. -/
theorem rebaseAfter_eq_ok
    (rebases : rebaseAfter setting view covered ledger checkpoint = .ok rebased) :
    (∀ table key, (rebased.tables table).get key =
      if (table, key) ∈ newer.flatMap OverlayLineageNode.keys ∧ Changed view covered table key
      then (view.tables table).get key else none) ∧
    Accounted setting rebased.tables rebased.chargedBytes ∧ rebased.lineage = [] := by
  simp only [rebaseAfter, walk_since since distinct, bind_eq_ok, require_eq_ok, exists_const,
    Except.ok.injEq, exists_eq_left'] at rebases
  obtain ⟨_, _, _, retained, folded, _, rfl⟩ := rebases
  have retains : Retains setting view covered retained (visited newer) := by
    have kept := foldlM_invariant (P := Retains setting view covered)
      (fun _ _ _ _ held moved => Retains.retainKey held moved) retains_empty folded
    exact kept
  refine ⟨?_, ⟨?_, ?_⟩, rfl⟩
  · intro table key
    rw [get_eq_lookup, entries_fromSortedEntries, retains.lookup]
    simp only [mem_visited]
  · simp only [entries_fromSortedEntries]
    exact retains.charge (nodup_visited newer)
  · simp only [entries_fromSortedEntries]
    exact retains.room

theorem rebaseAfter_succeeds (accounted : Accounted setting view.tables view.chargedBytes)
    (identifies : Identifies covered checkpoint) (grants : Grants ledger) :
    ∃ rebased, rebaseAfter setting view covered ledger checkpoint = .ok rebased := by
  have retention : ∃ retained, (visited newer).foldlM (retainKey setting view covered) .empty =
      .ok retained ∧ Retains setting view covered retained (visited newer) := by
    refine foldlM_succeeds ?_ retains_empty
    rintro retained seen ⟨table, key⟩ rest isVisited retains
    have member : (table, key) ∈ newer.flatMap OverlayLineageNode.keys := by
      rw [← mem_visited, isVisited]
      simp
    have distinctSeen : (seen ++ [(table, key)]).Nodup := by
      refine List.Nodup.sublist ?_ (nodup_visited newer)
      rw [isVisited, append_cons seen (table, key) rest]
      exact sublist_append_left _ _
    obtain ⟨value, found⟩ := since.touched table key member
    obtain ⟨next, moved⟩ := retainKey_succeeds accounted retains distinctSeen found
    exact ⟨next, moved, retains.retainKey moved⟩
  obtain ⟨retained, folded, _⟩ := retention
  have registered : (CompositeTableV1.all.all fun table =>
      (List.range (retained.entries table).length).all ledger.member) = true := by
    simp [grants.2]
  unfold visited at folded
  rw [rebaseAfter, require_pos ⟨since.checkpoint, identifies, since.transitionCount,
    since.encodedFrameBytes⟩, ok_bind, validateOverlayFamily, require_pos grants.1, ok_bind,
    walk_since since distinct, ok_bind, folded, ok_bind, require_pos registered, ok_bind]
  exact ⟨_, rfl⟩

/-- Over the state the covered view reads, the rebased view reads as the view did. -/
theorem reads_rebased {state newState : TableRows}
    (coveredReads : Reads means covered.tables state newState)
    (viewReads : Reads means view.tables state target)
    (rebases : rebaseAfter setting view covered ledger checkpoint = .ok rebased) :
    Reads means rebased.tables newState target := by
  intro table key
  obtain ⟨get, _, _⟩ := rebaseAfter_eq_ok since distinct rebases
  have before := coveredReads table key
  have after := viewReads table key
  unfold resolve at before after ⊢
  rw [get]
  split
  · next kept =>
    obtain ⟨value, isValue⟩ := since.touched table key kept.1
    rw [isValue] at after ⊢
    exact after
  · next dropped =>
    have same : (view.tables table).get key = (covered.tables table).get key := by
      by_cases touched : (table, key) ∈ newer.flatMap OverlayLineageNode.keys
      · by_contra differs
        exact dropped ⟨touched, Ne.symm differs⟩
      · exact since.untouched table key touched
    rw [Option.getD_none, ← before, ← after, same]

end

end

end Rebased

theorem Run.sound {initial : TableRows}
    {frames : List CompositeFrameV1} (run : Run setting means initial base view frames) :
    Sound setting means base.state (executeFrames initial frames) view := by
  induction run with
  | start base checkpoint isInitial =>
    subst isInitial
    refine ⟨fun _ _ => rfl, ⟨?_, ?_⟩, nodup_nil⟩
    · exact (totalCharge_nil setting.layout).symm
    · rintro ⟨table, nonempty⟩
      exact absurd rfl nonempty
  | frame ledger _ fresh accepts ih =>
    rw [executeFrames_append]
    exact ih.frame fresh accepts
  | rebase ledger checkpoint _ descends isState rebases ih =>
    obtain ⟨sound, newer, since⟩ := descends.sound ih
    obtain ⟨_, accounted, lineage⟩ := rebaseAfter_eq_ok since sound.distinct rebases
    rw [← executeFrames_append] at sound
    refine ⟨?_, accounted, ?_⟩
    · rw [isState]
      exact reads_rebased since sound.distinct ih.reads sound.reads rebases
    · rw [lineage]
      exact nodup_nil

/-- In a run whose rebases each cover a view published since the rebase before, every rebase
succeeds and the rebased view resolves every point as the view did; so does every later view,
which reads as the sequential state. -/
theorem rebase_preserves_view (means : Bytes → α) (setting : Setting) (initial : TableRows)
    {base : CompositeViewBase} {covered view : FrozenCompositeOverlay}
    {frames later : List CompositeFrameV1} (run : Run setting means initial base covered frames)
    (descends : Descends setting means base covered view later)
    (checkpoint : CompositeCheckpointV1) (identifies : Identifies covered checkpoint)
    (ledger : Ledger) (grants : Grants ledger) :
    ∃ rebased, rebaseAfter setting view covered ledger checkpoint = .ok rebased ∧
      ∀ newBase :
        CompositeViewBase, newBase.state = executeFrames initial frames → (∀ reader table key,
          (rebased.resolvePoint reader newBase table key).map (Option.map means) =
            (view.resolvePoint reader base table key).map (Option.map means)) ∧
        Run setting means initial newBase rebased (frames ++ later) ∧
        ∀ lastBase last all, Run setting means initial lastBase last all →
          ∀ reader table key, (last.resolvePoint reader lastBase table key).map (Option.map means) =
            if reader.enabled then .ok (((executeFrames initial all).read table key).map means)
            else .error limitExceeded := by
  obtain ⟨sound, newer, since⟩ := descends.sound run.sound
  obtain ⟨rebased, rebases⟩ :=
    rebaseAfter_succeeds since sound.distinct sound.accounted identifies grants
  refine ⟨rebased, rebases, ?_⟩
  intro newBase isState
  have next : Run setting means initial newBase rebased (frames ++ later) :=
    .rebase ledger checkpoint run descends isState rebases
  refine ⟨?_, next, ?_⟩
  · have viewReads := sound.reads
    rw [← executeFrames_append] at viewReads
    intro reader table key
    rw [resolvePoint_reads next.sound.reads, resolvePoint_reads viewReads]
  · intro lastBase last all reached reader table key
    rw [resolvePoint_reads reached.sound.reads]

/-- In every run of frames and rebases, a stage on a view reads as the view will that its frame
seals, and is charged for exactly what it holds. -/
theorem stage_reads_own_writes {initial : TableRows} :
    (∀ frames stage frame, Run setting means initial base view frames →
      Staged setting means base view stage → frame.mutations = stage.mutations →
      ∀ ledger table key, (stage.resolvePoint ledger base table key).map (Option.map means) =
        if ledger.enabled then
          .ok (((executeFrames initial (frames ++ [frame])).read table key).map means)
        else .error limitExceeded) ∧
    ∀ frames stage, Run setting means initial base view frames →
      Staged setting means base view stage → Accounted setting stage.tables stage.chargedBytes := by
  constructor
  · intro frames stage frame run staged same ledger table key
    have grows := staged.stages.grows
    rw [← same] at grows
    rw [executeFrames_append]
    -- a stage and a view resolve points of their tables alike
    exact @resolvePoint_reads _ _ _ _ { view with tables := stage.tables }
      (run.sound.reads.grows grows) ledger table key
  · intro frames stage run staged
    exact staged.stages.accounted run.sound.accounted

end Runs

section Sample

/-- A second frame puts one more row. -/
def secondFrame : CompositeFrameV1 :=
  { sampleFrame with
    previousHash := List.Vector.replicate 32 1
    frameHash := List.Vector.replicate 32 2
    mutations := [.put .entities [4] none [5]] }

def secondLedger : Ledger := { sampleLedger with lineage := some 1 }

def firstView : FrozenCompositeOverlay := sampleOutcome.2.freeze

def secondOutcome : Except StorageValueError Unit × CompositeOverlayBuilder :=
  CompositeOverlayBuilder.applyFrame sampleSetting secondLedger secondFrame sampleBase
    (.fromPublished firstView)

theorem secondOutcome_accepted : secondOutcome = (.ok ⟨⟩, secondOutcome.2) :=
  Prod.ext (by decide +kernel) rfl

def secondView : FrozenCompositeOverlay := secondOutcome.2.freeze

/-- The checkpoint that holds the first frame. -/
def firstBase : CompositeViewBase :=
  { sampleBase with state := executeFrame sampleBase.state sampleFrame }

def firstCheckpoint : CompositeCheckpointV1 :=
  { sampleCheckpoint with terminalFrameHash := List.Vector.replicate 32 1 }

/-- A rebase of the samples. -/
def sampleRebase (view covered : FrozenCompositeOverlay) :
    Except StorageValueError FrozenCompositeOverlay :=
  rebaseAfter sampleSetting view covered sampleLedger firstCheckpoint

theorem run_firstView :
    Run sampleSetting id sampleBase.state sampleBase firstView [sampleFrame] := by
  refine .frame sampleLedger (.start sampleBase sampleCheckpoint rfl) ?_
    (.applied sampleOutcome_accepted)
  intro node inUse
  cases inUse

theorem rebase_preserves_view_sample :
    ∃ rebased, sampleRebase secondView firstView = .ok rebased ∧
      rebased.resolvePoint sampleLedger firstBase .entities [4] = .ok (some [5]) := by
  have descends : Descends sampleSetting id sampleBase firstView secondView [secondFrame] := by
    refine .frame secondLedger .refl ?_ (.applied secondOutcome_accepted)
    have lineage : firstView.lineage.map OverlayLineageNode.allocation = [0] := by decide +kernel
    intro node inUse same
    have place : node.allocation = 1 := (Option.some.inj same).symm
    have member := mem_map_of_mem (f := OverlayLineageNode.allocation) inUse
    rw [lineage, place] at member
    simp at member
  have identifies : Identifies firstView firstCheckpoint := by decide +kernel
  obtain ⟨rebased, rebases, preserved⟩ := rebase_preserves_view id sampleSetting sampleBase.state
    run_firstView descends firstCheckpoint identifies sampleLedger ⟨rfl, fun _ => rfl⟩
  obtain ⟨same, _, _⟩ := preserved firstBase rfl
  refine ⟨rebased, rebases, ?_⟩
  have point := same sampleLedger .entities [4]
  rw [Option.map_id, Except.map_id] at point
  rw [id, id] at point
  rw [point]
  decide +kernel

/-- A stage on the first view that puts the row of the second frame. -/
def sampleStage : Except StorageValueError Unit × CompositeMutationStage :=
  CompositeMutationStage.apply sampleSetting secondLedger (.put .entities [4] none [5]) sampleBase
    (.new firstView)

theorem stage_reads_own_writes_sample :
    sampleStage.1 = .ok ⟨⟩ ∧ sampleStage.2.resolvePoint sampleLedger sampleBase .entities [4] =
      .ok ((executeFrames sampleBase.state [sampleFrame, secondFrame]).read .entities [4]) := by
  have accepted : sampleStage.1 = .ok ⟨⟩ := by decide +kernel
  have staged : Staged sampleSetting id sampleBase firstView sampleStage.2 :=
    .apply secondLedger _ .new (Prod.ext accepted rfl)
  refine ⟨accepted, ?_⟩
  have point := stage_reads_own_writes.1 [sampleFrame] sampleStage.2 secondFrame
    run_firstView staged
    (by decide +kernel) sampleLedger .entities [4]
  rwa [Option.map_id, Except.map_id] at point

end Sample

end OverlayRebase
