import RiffDb.RecordMaterialization

/-!
# The recheck of an attempt against the current state

Before an attempt is committed, its targets are read again in the write transaction. First the
dependencies are compared: presence and version of each entity, generation of each range. When they
are equal, the records must equal, field for field, what the snapshot held before optional fields
were filled in with nulls.

Versions start again when an entity is created again, so equal versions do not mean equal records.
-/

namespace TransactionCurrent

open ByteWire CheckedCode CanonicalScalars CanonicalValues CanonicalRecords List
open KeySchemas ValueTypes CommandPlans CommandRuntime EvaluatedCommands ReplicationTypes
open RecordMaterialization

def maxReadDependencies : Nat := 4096

def maxReadSnapshotBytes : Nat := 16 * 1024 * 1024

inductive IndexEpochPosition where
  | beforeFirst
  | value (epoch : NonZeroU64)
deriving DecidableEq

def IndexEpochPosition.semanticBytes : IndexEpochPosition → Nat
  | .beforeFirst => 1
  | .value _ => 1 + 8

/-- One index in one partition: all its ranges there share a generation. -/
@[ext] structure PartitionIndexTarget where
  partitionKey : PartitionKey
  indexId : IndexId
deriving DecidableEq

def PartitionIndexTarget.semanticBytes (target : PartitionIndexTarget) : Nat :=
  target.partitionKey.asBytes.length + 8

def generationTarget (target : IndexRangeTarget) : PartitionIndexTarget :=
  ⟨target.partitionKey, target.indexId⟩

def rangeTargetBytes (target : IndexRangeTarget) : Nat :=
  target.prefixBytes.length + (generationTarget target).semanticBytes + (4 + 4)

/-- An entity dependency expects absence or one version. -/
inductive ReadDependency where
  | entityObservation (target : EntityTarget) (expected : Option EntityVersion)
  | indexRangeEpoch (target : IndexRangeTarget) (expected : IndexEpochPosition)
deriving DecidableEq

inductive Observation where
  | absent (target : EntityTarget)
  | present (record : StoredEntity)
deriving DecidableEq

namespace Observation

def target : Observation → EntityTarget
  | .absent target => target
  | .present record => record.target

def expectedState : Observation → Option EntityVersion
  | .absent _ => none
  | .present record => some record.entityVersion

def isPresent : Observation → Bool
  | .absent _ => false
  | .present _ => true

def semanticBytes : Observation → Nat
  | .absent target => EntityTarget.semanticBytes target + 1
  | .present record => record.semanticBytes + 1

def dependency (observation : Observation) : ReadDependency :=
  .entityObservation observation.target observation.expectedState

end Observation

/-- The bytes that dependencies are sorted by. -/
def targetKey : ReadDependency → Bytes
  | .entityObservation target _ => mutationOrderKey target
  | .indexRangeEpoch target _ =>
    let generationKey := beBytes 4 target.partitionKey.asBytes.length ++
      target.partitionKey.asBytes ++
      u32ToBeBytes target.indexId.get
    [0x03] ++ beBytes 4 generationKey.length ++ generationKey ++
      beBytes 4 target.prefixBytes.length ++
      target.prefixBytes

/-- Equal neighbours are kept once; neighbours with one key must be equal. -/
def collapse : Option ReadDependency → List ReadDependency →
    Except StorageValueError (List ReadDependency)
  | _, [] => .ok []
  | none, dependency :: rest => do
    let later ← collapse (some dependency) rest
    .ok (dependency :: later)
  | some prior, dependency :: rest =>
    if targetKey prior = targetKey dependency then
      if prior = dependency then collapse (some prior) rest else .error .identityMismatch
    else do
      let later ← collapse (some dependency) rest
      .ok (dependency :: later)

def notAfter (left right : ReadDependency) : Bool :=
  (compare (targetKey left) (targetKey right)).isLE

/-- `ReadDependencies::new`. -/
def readDependenciesNew (dependencies : List ReadDependency) :
    Except StorageValueError (List ReadDependency) := do
  require (dependencies.length ≤ maxReadDependencies) .limitExceeded
  collapse none (dependencies.mergeSort notAfter)

theorem notAfter_trans (first second third : ReadDependency) (left : notAfter first second = true)
    (right : notAfter second third = true) : notAfter first third = true :=
  Std.TransCmp.isLE_trans left right

theorem notAfter_total (left right : ReadDependency) :
    (notAfter left right || notAfter right left) = true := by
  have swapped : compare (targetKey left) (targetKey right) =
      (compare (targetKey right) (targetKey left)).swap := Std.OrientedCmp.eq_swap
  rw [notAfter, notAfter, swapped]
  cases compare (targetKey right) (targetKey left) <;> rfl

theorem kept_eq_ok {first : ReadDependency}
    {later : Except StorageValueError (List ReadDependency)} :
    (∃ result, (do let later ← later; .ok (first :: later)) = .ok result) ↔ ∃ result,
      later = .ok result := by
  simp [bind_eq_ok]

/-- Sorted dependencies collapse exactly when those with one key are equal, and then to the same
elements. -/
theorem collapse_some {prior : ReadDependency} {dependencies : List ReadDependency}
    (sorted : (prior :: dependencies).Pairwise fun left right => notAfter left right = true) :
    ((∃ result, collapse (some prior) dependencies = .ok result) ↔
      Set.InjOn targetKey {dependency | dependency ∈ prior :: dependencies}) ∧
    ∀ result, collapse (some prior) dependencies = .ok result →
      ∀ dependency, dependency ∈ prior :: result ↔ dependency ∈ prior :: dependencies := by
  induction dependencies generalizing prior with
  | nil => simp [collapse]
  | cons first rest ih =>
    obtain ⟨before, others⟩ := pairwise_cons.mp sorted
    by_cases sameKey : targetKey prior = targetKey first
    · by_cases same : prior = first
      · subst same
        have step : collapse (some prior) (prior :: rest) = collapse (some prior) rest := by
          simp [collapse]
        rw [step]
        have later := ih others
        simpa using later
      · have refused : collapse (some prior) (first :: rest) = .error .identityMismatch := by
          simp [collapse, sameKey, same]
        rw [refused]
        refine ⟨⟨?_, fun all => ?_⟩, ?_⟩
        · rintro ⟨_, impossible⟩
          cases impossible
        · exact absurd (all mem_cons_self (mem_cons_of_mem _ mem_cons_self) sameKey) same
        · intro result impossible
          cases impossible
    · obtain ⟨accepted, members⟩ := ih others
      have step : collapse (some prior) (first :: rest) =
          (do
            let later ← collapse (some first) rest
            .ok (first :: later)) := by
        simp [collapse, sameKey]
      have apart : ∀ other ∈ first :: rest, targetKey other ≠ targetKey prior := by
        intro other member equal
        have low : notAfter first other = true := by
          rcases mem_cons.mp member with rfl | member
          · simp [notAfter]
          · exact (pairwise_cons.mp others).1 other member
        have high := before first mem_cons_self
        rw [notAfter, equal] at low
        rw [notAfter] at high
        exact sameKey (Std.LawfulEqCmp.eq_of_compare (Std.OrientedCmp.isLE_antisymm high low))
      have fresh : prior ∉ {dependency | dependency ∈ first :: rest} :=
        fun member => apart prior member rfl
      have alone : targetKey prior ∉ targetKey '' {dependency | dependency ∈ first :: rest} := by
        rintro ⟨other, member, equal⟩
        exact apart other member equal
      have whole : {dependency | dependency ∈ prior :: first :: rest} =
          insert prior {dependency | dependency ∈ first :: rest} := Set.ext fun _ => mem_cons
      rw [step, kept_eq_ok, accepted, whole, Set.injOn_insert fresh]
      refine ⟨(and_iff_left alone).symm, fun result built dependency => ?_⟩
      obtain ⟨later, laterBuilt, isResult⟩ := bind_eq_ok.mp built
      cases isResult
      rw [mem_cons, members later laterBuilt dependency, ← mem_cons]

theorem collapse_none {dependencies : List ReadDependency}
    (sorted : dependencies.Pairwise fun left right => notAfter left right = true) :
    ((∃ result, collapse none dependencies = .ok result) ↔
      Set.InjOn targetKey {dependency | dependency ∈ dependencies}) ∧
    ∀ result, collapse none dependencies = .ok result →
      ∀ dependency, dependency ∈ result ↔ dependency ∈ dependencies := by
  cases dependencies with
  | nil => simp [collapse]
  | cons first rest =>
    obtain ⟨accepted, members⟩ := collapse_some sorted
    refine ⟨kept_eq_ok.trans accepted, fun result built dependency => ?_⟩
    obtain ⟨later, laterBuilt, isResult⟩ := bind_eq_ok.mp built
    cases isResult
    exact members later laterBuilt dependency

/-- Dependencies are accepted when they are few enough and no target has two. -/
theorem readDependenciesNew_accepts (dependencies : List ReadDependency) :
    (∃ result, readDependenciesNew dependencies = .ok result) ↔
      dependencies.length ≤ maxReadDependencies ∧
      Set.InjOn targetKey {dependency | dependency ∈ dependencies} := by
  have sorted := pairwise_mergeSort notAfter_trans notAfter_total dependencies
  have accepted := (collapse_none sorted).1
  simp only [mem_mergeSort] at accepted
  rw [← accepted]
  simp only [readDependenciesNew, bind_eq_ok, require_eq_ok, exists_const, exists_and_left]

theorem mem_readDependenciesNew {dependencies result : List ReadDependency}
    (built : readDependenciesNew dependencies = .ok result) (dependency : ReadDependency) :
    dependency ∈ result ↔ dependency ∈ dependencies := by
  have sorted := pairwise_mergeSort notAfter_trans notAfter_total dependencies
  simp only [readDependenciesNew, bind_eq_ok, require_eq_ok] at built
  obtain ⟨_, _, collapsed⟩ := built
  rw [(collapse_none sorted).2 result collapsed, mem_mergeSort]

@[ext] structure StoreState where
  entity : EntityTarget → Option StoredEntity
  generation : PartitionIndexTarget → IndexEpochPosition
  keyed : ∀ target record, entity target = some record → record.target = target

variable (state : StoreState)

namespace StoreState

def observe (target : EntityTarget) : Observation :=
  match state.entity target with
  | none => .absent target
  | some record => .present record

def version (target : EntityTarget) : Option EntityVersion :=
  (state.entity target).map StoredEntity.entityVersion

/-- A range that is validated entity by entity observes no generation. -/
def position (range : IndexRangeTarget) : IndexEpochPosition :=
  if range.pointValidated then .beforeFirst else state.generation (generationTarget range)

theorem observe_target (target : EntityTarget) : (state.observe target).target = target := by
  unfold observe
  split
  · rfl
  · next record found => exact state.keyed target record found

theorem observe_expectedState (target : EntityTarget) :
    (state.observe target).expectedState = state.version target := by
  unfold observe version
  split
  · next missing => rw [missing]; rfl
  · next record found => rw [found]; rfl

/-- An observation holds the whole record. -/
theorem observe_eq_iff (left right : StoreState) (target : EntityTarget) :
    left.observe target = right.observe target ↔ left.entity target = right.entity target := by
  unfold observe
  cases left.entity target <;> cases right.entity target <;> simp

end StoreState

structure ValidationReadRequest where
  bindingTargets : List EntityTarget
  rootValidationTargets : List EntityTarget
  cascadeTargets : List EntityTarget
  ranges : List IndexRangeTarget

def ValidationReadRequest.entityTargets (request : ValidationReadRequest) : List EntityTarget :=
  request.bindingTargets ++ request.rootValidationTargets ++ request.cascadeTargets

@[ext] structure TransactionCurrentState where
  bindings : List Observation
  rootValidations : List Observation
  cascadePredecessors : List Observation
  ranges : List (IndexRangeTarget × IndexEpochPosition)
deriving DecidableEq

namespace TransactionCurrentState

def observations (current : TransactionCurrentState) : List Observation :=
  current.bindings ++ current.rootValidations ++ current.cascadePredecessors

def semanticBytes (current : TransactionCurrentState) : Nat :=
  4 + 4 + 4 + 4 + (current.observations.map Observation.semanticBytes).sum +
    (current.ranges.map fun range => rangeTargetBytes range.1 + range.2.semanticBytes).sum

def dependencies (current : TransactionCurrentState) : List ReadDependency :=
  current.observations.map Observation.dependency ++
    current.ranges.map fun range => .indexRangeEpoch range.1 range.2

/-- The targets of a request as one state has them. -/
def ofState (request : ValidationReadRequest) : TransactionCurrentState :=
  ⟨request.bindingTargets.map state.observe, request.rootValidationTargets.map state.observe,
    request.cascadeTargets.map state.observe,
    request.ranges.map fun range => (range, state.position range)⟩

theorem observations_ofState (request : ValidationReadRequest) :
    (ofState state request).observations = request.entityTargets.map state.observe := by
  simp only [observations, ofState, ValidationReadRequest.entityTargets, map_append]

theorem dependencies_ofState (request : ValidationReadRequest) :
    (ofState state request).dependencies =
      request.entityTargets.map (fun target => .entityObservation target (state.version target)) ++
        request.ranges.map fun range => .indexRangeEpoch range (state.position range) := by
  rw [dependencies, observations_ofState, map_map]
  congr 1
  · refine map_congr_left fun target _ => ?_
    simp only [Function.comp_apply, Observation.dependency, state.observe_target,
      state.observe_expectedState]
  · simp only [ofState, map_map]
    rfl

end TransactionCurrentState

def dependenciesFromCurrent (current : TransactionCurrentState) :
    Except StorageValueError (List ReadDependency) :=
  readDependenciesNew current.dependencies

/-- Every observed record and range generation is as it was. -/
def Unchanged (before after : StoreState) (request : ValidationReadRequest) : Prop :=
  (∀ target ∈ request.entityTargets, after.entity target = before.entity target) ∧
    ∀ range ∈ request.ranges, after.position range = before.position range

/-- Some observed presence, version or generation is not as it was. -/
def DependencyMoved (before after : StoreState) (request : ValidationReadRequest) : Prop :=
  (∃ target ∈ request.entityTargets, after.version target ≠ before.version target) ∨
    ∃ range ∈ request.ranges, after.position range ≠ before.position range

variable {before after : StoreState}

theorem not_dependencyMoved {request : ValidationReadRequest} :
    ¬ DependencyMoved before after request ↔
      (∀ target ∈ request.entityTargets, after.version target = before.version target) ∧
        ∀ range ∈ request.ranges, after.position range = before.position range := by
  simp only [DependencyMoved, not_or, not_exists, not_and, not_not]

open TransactionCurrentState ReadDependency

/-- The key of a dependency is fixed by its target, so what one state satisfied every state
satisfies. -/
theorem dependencies_accepted (before after : StoreState) (request : ValidationReadRequest)
    (accepted : ∃ result, dependenciesFromCurrent (ofState before request) = .ok result) :
    ∃ result, dependenciesFromCurrent (ofState after request) = .ok result := by
  simp only [dependenciesFromCurrent, readDependenciesNew_accepts,
    dependencies_ofState, length_append, length_map] at accepted ⊢
  obtain ⟨bounded, determined⟩ := accepted
  refine ⟨bounded, fun left leftMember right rightMember equal => ?_⟩
  -- each dependency of the later state has a counterpart with its target in the earlier one
  rcases mem_append.mp leftMember with member | member <;>
    obtain ⟨leftTarget, leftIn, rfl⟩ := mem_map.mp member <;>
    rcases mem_append.mp rightMember with member | member <;>
    obtain ⟨rightTarget, rightIn, rfl⟩ := mem_map.mp member
  · have same := determined (mem_append_left _ (mem_map_of_mem leftIn))
      (mem_append_left _ (mem_map_of_mem rightIn)) equal
    cases (entityObservation.inj same).1
    rfl
  · have same := determined (mem_append_left _ (mem_map_of_mem leftIn))
      (mem_append_right _ (mem_map_of_mem rightIn)) equal
    cases same
  · have same := determined (mem_append_right _ (mem_map_of_mem leftIn))
      (mem_append_left _ (mem_map_of_mem rightIn)) equal
    cases same
  · have same := determined (mem_append_right _ (mem_map_of_mem leftIn))
      (mem_append_right _ (mem_map_of_mem rightIn)) equal
    cases (indexRangeEpoch.inj same).1
    rfl

/-- Two states give one list of dependencies exactly when none has moved. -/
theorem dependencies_eq_iff {request : ValidationReadRequest} {earlier later : List ReadDependency}
    (earlierBuilt : dependenciesFromCurrent (ofState before request) = .ok earlier)
    (laterBuilt : dependenciesFromCurrent (ofState after request) = .ok later) :
    later = earlier ↔ ¬ DependencyMoved before after request := by
  rw [not_dependencyMoved]
  constructor
  · rintro rfl
    have members : ∀ dependency, dependency ∈ (ofState after request).dependencies →
          dependency ∈ (ofState before request).dependencies :=
      fun dependency member => (mem_readDependenciesNew earlierBuilt dependency).mp
        ((mem_readDependenciesNew laterBuilt dependency).mpr member)
    rw [dependencies_ofState, dependencies_ofState] at members
    constructor
    · intro target isTarget
      have member := members _ (mem_append_left _ (mem_map_of_mem isTarget))
      rcases mem_append.mp member with member | member
      · obtain ⟨other, _, same⟩ := mem_map.mp member
        cases (entityObservation.inj same).1
        exact (entityObservation.inj same).2.symm
      · obtain ⟨_, _, impossible⟩ := mem_map.mp member
        cases impossible
    · intro range isRange
      have member := members _ (mem_append_right _ (mem_map_of_mem isRange))
      rcases mem_append.mp member with member | member
      · obtain ⟨_, _, impossible⟩ := mem_map.mp member
        cases impossible
      · obtain ⟨other, _, same⟩ := mem_map.mp member
        cases (indexRangeEpoch.inj same).1
        exact (indexRangeEpoch.inj same).2.symm
  · rintro ⟨versions, positions⟩
    have same : (ofState after request).dependencies =
        (ofState before request).dependencies := by
      rw [dependencies_ofState, dependencies_ofState]
      congr 1
      · exact map_congr_left fun target isTarget => by rw [versions target isTarget]
      · exact map_congr_left fun range isRange => by rw [positions range isRange]
    rw [dependenciesFromCurrent, same] at laterBuilt
    exact Except.ok.inj (laterBuilt.symm.trans earlierBuilt)

section Materialisation

variable (schemaOf : EntityTypeId → Option RecordSchema)

/-- The nulls that the analysis of a snapshot decides to insert. -/
def maskOf : Observation → Option InsertedNullMask
  | .absent _ => none
  | .present record => (schemaOf record.target.entityTypeId).bind fun schema =>
      missingFields schema record.fields

def normalizeObservation (mask : Option InsertedNullMask) :
    Observation → Except MaterializationError Observation
  | .absent target => .ok (.absent target)
  | .present record => do
    let schema ← okOr (schemaOf record.target.entityTypeId) .integrity
    let filled ← normalizeRecord record schema mask
    .ok (.present filled)

def normalizeAll : List (Option InsertedNullMask) → List Observation →
    Except MaterializationError (List Observation)
  | mask :: masks, observation :: rest => do
    let first ← normalizeObservation schemaOf mask observation
    let later ← normalizeAll masks rest
    .ok (first :: later)
  | [], _ :: _ => .error .integrity
  | _, [] => .ok []

structure SnapshotMasks where
  bindings : List (Option InsertedNullMask)
  rootValidations : List (Option InsertedNullMask)
  cascadePredecessors : List (Option InsertedNullMask)

def masksOf (raw : TransactionCurrentState) : SnapshotMasks :=
  ⟨raw.bindings.map (maskOf schemaOf), raw.rootValidations.map (maskOf schemaOf),
    raw.cascadePredecessors.map (maskOf schemaOf)⟩

def normalizeCurrent (masks : SnapshotMasks) (raw : TransactionCurrentState) :
    Except MaterializationError TransactionCurrentState := do
  let bindings ← normalizeAll schemaOf masks.bindings raw.bindings
  let rootValidations ← normalizeAll schemaOf masks.rootValidations raw.rootValidations
  let cascadePredecessors ← normalizeAll schemaOf masks.cascadePredecessors raw.cascadePredecessors
  .ok ⟨bindings, rootValidations, cascadePredecessors, raw.ranges⟩

/-- The filled snapshot of an attempt, what it depends on and what was filled in. -/
structure MaterializedCommandSnapshot where
  snapshot : TransactionCurrentState
  readDependencies : List ReadDependency
  masks : SnapshotMasks

/-- A snapshot is charged for more than the state read again is: for its plan, its entries and its
dependencies. `overheadBytes` is that difference. -/
def materializeCommandSnapshot (overheadBytes : Nat) (raw : TransactionCurrentState) :
    Except MaterializationError MaterializedCommandSnapshot := do
  require (raw.semanticBytes + overheadBytes ≤ maxReadSnapshotBytes) .integrity
  let readDependencies ← (dependenciesFromCurrent raw).mapError fun _ => .integrity
  require (raw.rootValidations.all Observation.isPresent) .integrity
  require (raw.cascadePredecessors.all Observation.isPresent) .integrity
  let snapshot ← normalizeCurrent schemaOf (masksOf schemaOf raw) raw
  require (snapshot.semanticBytes + overheadBytes ≤ maxReadSnapshotBytes) .integrity
  .ok ⟨snapshot, readDependencies, masksOf schemaOf raw⟩

def verifyRawObservation (retained : Observation) (mask : Option InsertedNullMask)
    (raw : Observation) : Except MaterializationError Unit :=
  match retained with
  | .absent _ => require (mask = none ∧ retained = raw) .integrity
  | .present record => do
    let schema ← okOr (schemaOf record.target.entityTypeId) .integrity
    let reconstructed ← reconstructRawRecord record schema mask
    require (raw = .present reconstructed) .integrity

/-- Every retained observation against the one read again at its position. -/
def verifyAll : List Observation → List (Option InsertedNullMask) → List Observation →
    Except MaterializationError Unit
  | retained :: kept, mask :: masks, raw :: raws => do
    verifyRawObservation schemaOf retained mask raw
    verifyAll kept masks raws
  | _ :: _, [], _ :: _ => .error .integrity
  | _, _, _ => .ok ()

def sameTargets (left right : List Observation) : Bool :=
  left.map Observation.target = right.map Observation.target

def validateCurrentShape (snapshot current : TransactionCurrentState) :
    Except MaterializationError Unit :=
  require (sameTargets snapshot.bindings current.bindings ∧
    sameTargets snapshot.rootValidations current.rootValidations ∧
    sameTargets snapshot.cascadePredecessors current.cascadePredecessors ∧
    snapshot.ranges.map Prod.fst = current.ranges.map Prod.fst) .integrity

def compareCurrentDependencies (attempt : MaterializedCommandSnapshot)
    (current : TransactionCurrentState) : Except MaterializationError Bool := do
  validateCurrentShape attempt.snapshot current
  let currentDependencies ← (dependenciesFromCurrent current).mapError fun _ => .integrity
  .ok (currentDependencies ≠ attempt.readDependencies)

inductive TransactionCurrentMaterialization where
  | ready (state : TransactionCurrentState)
  | dependencyChanged
deriving DecidableEq

def materializeTransactionCurrent (attempt : MaterializedCommandSnapshot)
    (raw : TransactionCurrentState) :
    Except MaterializationError TransactionCurrentMaterialization := do
  let changed ← compareCurrentDependencies attempt raw
  if changed then .ok .dependencyChanged
  else do
    verifyAll schemaOf attempt.snapshot.bindings attempt.masks.bindings raw.bindings
    verifyAll schemaOf attempt.snapshot.cascadePredecessors attempt.masks.cascadePredecessors
      raw.cascadePredecessors
    verifyAll schemaOf attempt.snapshot.rootValidations attempt.masks.rootValidations
      raw.rootValidations
    let state ← normalizeCurrent schemaOf attempt.masks raw
    require (state.semanticBytes ≤ maxReadSnapshotBytes) .integrity
    require (state.bindings = attempt.snapshot.bindings ∧
      state.rootValidations = attempt.snapshot.rootValidations) .integrity
    .ok (.ready state)

inductive TransactionCurrentAttemptDecision where
  | storageFailure (reason : StorageValueError)
  | integrity
  | dependencyChanged
  | ready (state : TransactionCurrentState)
deriving DecidableEq

/-- The read in the write transaction. Each observation is charged as it is pushed; the charges only
grow, so the limit is met by all of them when it is met by their sum. -/
def readCurrent (request : ValidationReadRequest) :
    Except StorageValueError TransactionCurrentState := do
  let current := TransactionCurrentState.ofState state request
  require (current.semanticBytes ≤ maxReadSnapshotBytes) .limitExceeded
  .ok current

def readTransactionCurrent (attempt : MaterializedCommandSnapshot) (state : StoreState)
    (request : ValidationReadRequest) : TransactionCurrentAttemptDecision :=
  match readCurrent state request with
  | .error reason => .storageFailure reason
  | .ok current =>
    match dependenciesFromCurrent current with
    | .error _ => .integrity
    | .ok dependencies =>
      if dependencies ≠ attempt.readDependencies then .dependencyChanged
      else
        match materializeTransactionCurrent schemaOf attempt current with
        | .error _ => .integrity
        | .ok .dependencyChanged => .integrity
        | .ok (.ready state) => .ready state

variable {schemaOf}
variable {raw filled : Observation}

theorem normalizeObservation_target {mask : Option InsertedNullMask}
    (built : normalizeObservation schemaOf mask raw = .ok filled) : filled.target = raw.target := by
  cases raw with
  | absent target =>
    cases built
    rfl
  | present record =>
    simp only [normalizeObservation, bind_eq_ok, Except.ok.injEq] at built
    obtain ⟨_, _, filled, filledBuilt, rfl⟩ := built
    exact (normalizeRecord_eq_ok filledBuilt).1

/-- The record read again must be the stored one that the snapshot held. -/
theorem verifyRawObservation_iff
    (built : normalizeObservation schemaOf (maskOf schemaOf raw) raw = .ok filled)
    (current : Observation) :
    verifyRawObservation schemaOf filled (maskOf schemaOf raw) current = .ok () ↔
      current = raw := by
  cases raw with
  | absent target =>
    cases built
    simp only [verifyRawObservation, maskOf, require_eq_ok, true_and]
    exact eq_comm
  | present record =>
    simp only [normalizeObservation, bind_eq_ok, okOr_eq_ok, Except.ok.injEq] at built
    obtain ⟨schema, isSchema, filled, filledBuilt, rfl⟩ := built
    have sameTarget := (normalizeRecord_eq_ok filledBuilt).1
    simp only [verifyRawObservation, sameTarget, isSchema, okOr_some, ok_bind,
      reconstructRawRecord_normalizeRecord filledBuilt, require_eq_ok]

variable {raws filled : List Observation}

theorem normalizeAll_targets {masks : List (Option InsertedNullMask)}
    (built : normalizeAll schemaOf masks raws = .ok filled) :
    filled.map Observation.target = raws.map Observation.target := by
  induction raws generalizing masks filled with
  | nil =>
    cases masks <;> cases built <;> rfl
  | cons raw rest ih =>
    cases masks with
    | nil => cases built
    | cons mask masks =>
      simp only [normalizeAll, bind_eq_ok, Except.ok.injEq] at built
      obtain ⟨first, firstBuilt, later, laterBuilt, rfl⟩ := built
      rw [map_cons, map_cons, normalizeObservation_target firstBuilt, ih laterBuilt]

theorem verifyAll_iff (built : normalizeAll schemaOf (raws.map (maskOf schemaOf)) raws = .ok filled)
    {current : List Observation} (length : current.length = raws.length) :
    verifyAll schemaOf filled (raws.map (maskOf schemaOf)) current = .ok () ↔ current = raws := by
  induction raws generalizing filled current with
  | nil =>
    cases built
    cases current with
    | nil => simp [verifyAll]
    | cons _ _ => cases length
  | cons raw rest ih =>
    simp only [map_cons, normalizeAll, bind_eq_ok, Except.ok.injEq] at built
    obtain ⟨first, firstBuilt, later, laterBuilt, rfl⟩ := built
    cases current with
    | nil => cases length
    | cons now others =>
      have here := verifyRawObservation_iff firstBuilt now
      have after := ih laterBuilt (by simpa using length)
      simp only [map_cons, verifyAll, bind_eq_ok, exists_const, here, after, List.cons.injEq]

variable (schemaOf) in
/-- What the materialisation of a snapshot of `before` has established. -/
structure MaterializedAt (before : StoreState) (request : ValidationReadRequest)
    (attempt : MaterializedCommandSnapshot) : Prop where
  rawFits : (TransactionCurrentState.ofState before request).semanticBytes ≤ maxReadSnapshotBytes
  fits : attempt.snapshot.semanticBytes ≤ maxReadSnapshotBytes
  dependencies : dependenciesFromCurrent (TransactionCurrentState.ofState before request) =
    .ok attempt.readDependencies
  masks : attempt.masks = masksOf schemaOf (TransactionCurrentState.ofState before request)
  normalized : normalizeCurrent schemaOf attempt.masks
    (TransactionCurrentState.ofState before request) = .ok attempt.snapshot

theorem materializedAt_of_ok {before : StoreState} {request : ValidationReadRequest}
    {overheadBytes : Nat} {attempt : MaterializedCommandSnapshot}
    (built : materializeCommandSnapshot schemaOf overheadBytes
      (ofState before request) = .ok attempt) : MaterializedAt schemaOf before request attempt := by
  simp only [materializeCommandSnapshot, bind_eq_ok, require_eq_ok, mapError_eq_ok,
    Except.ok.injEq] at built
  obtain ⟨_, rawFits, dependencies, dependenciesBuilt, _, _, _, _, snapshot, normalized,
      _, fits, rfl⟩ :=
    built
  exact ⟨by omega, by simpa using Nat.le_of_add_right_le fits, dependenciesBuilt, rfl, normalized⟩

section Decision

variable {before after : StoreState} {request : ValidationReadRequest}
  {attempt : MaterializedCommandSnapshot}

def Fits (request : ValidationReadRequest) : Prop :=
  (TransactionCurrentState.ofState state request).semanticBytes ≤ maxReadSnapshotBytes

open StoreState

theorem unchanged_iff_ofState : Unchanged before after request ↔
    ofState after request = ofState before request := by
  simp only [Unchanged, TransactionCurrentState.ext_iff, ofState,
    map_inj_left, observe_eq_iff, Prod.mk.injEq, true_and,
    ValidationReadRequest.entityTargets, mem_append, or_imp, forall_and, and_assoc]

theorem not_moved_of_unchanged (same : Unchanged before after request) :
    ¬ DependencyMoved before after request := by
  refine not_dependencyMoved.mpr ⟨fun target isTarget => ?_, same.2⟩
  rw [version, same.1 target isTarget]
  rfl

/-- The state read again has the targets of the snapshot. -/
theorem validateCurrentShape_ok (materialized : MaterializedAt schemaOf before request attempt)
    (after : StoreState) : validateCurrentShape attempt.snapshot
      (ofState after request) = .ok () := by
  have normalized := materialized.normalized
  simp only [normalizeCurrent, bind_eq_ok, Except.ok.injEq] at normalized
  obtain ⟨bindings, bindingsBuilt, roots, rootsBuilt, cascades, cascadesBuilt, isSnapshot⟩ :=
    normalized
  have targets : ∀ (state : StoreState) (listed : List EntityTarget),
      (listed.map state.observe).map Observation.target = listed := by
    intro state listed
    rw [map_map]
    exact map_id'' (fun target => state.observe_target target) listed
  simp only [validateCurrentShape, require_eq_ok, sameTargets, decide_eq_true_eq, ← isSnapshot,
    normalizeAll_targets bindingsBuilt, normalizeAll_targets rootsBuilt,
    normalizeAll_targets cascadesBuilt, ofState, targets, map_map]
  exact ⟨trivial, trivial, trivial, rfl⟩

theorem readCurrent_of_fits (fits : Fits after request) :
    readCurrent after request = .ok (ofState after request) := by
  rw [Fits] at fits
  simp only [readCurrent, require_pos fits, ok_bind]

theorem too_large_refused (large : ¬ Fits after request) :
    readTransactionCurrent schemaOf attempt after request = .storageFailure .limitExceeded := by
  have refused : readCurrent after request = .error .limitExceeded := by
    rw [Fits] at large
    simp only [readCurrent, require_neg large, error_bind]
  rw [readTransactionCurrent, refused]

section

variable (materialized : MaterializedAt schemaOf before request attempt)

include materialized

theorem moved_retried (fits : Fits after request) (moved : DependencyMoved before after request) :
    readTransactionCurrent schemaOf attempt after request = .dependencyChanged := by
  obtain ⟨later, laterBuilt⟩ :=
    dependencies_accepted before after request ⟨_, materialized.dependencies⟩
  have apart : later ≠ attempt.readDependencies := fun same =>
    (dependencies_eq_iff materialized.dependencies laterBuilt).mp same moved
  rw [readTransactionCurrent, readCurrent_of_fits fits]
  simp only [laterBuilt, if_pos apart]

/-- With equal dependencies the decision is that of the comparison of the records. -/
theorem unmoved_decision (fits : Fits after request)
    (unmoved : ¬ DependencyMoved before after request) :
    readTransactionCurrent schemaOf attempt after request =
      match materializeTransactionCurrent schemaOf attempt (ofState after request) with
      | .error _ => .integrity
      | .ok .dependencyChanged => .integrity
      | .ok (.ready state) => .ready state := by
  obtain ⟨later, laterBuilt⟩ :=
    dependencies_accepted before after request ⟨_, materialized.dependencies⟩
  have same := (dependencies_eq_iff materialized.dependencies laterBuilt).mpr unmoved
  rw [readTransactionCurrent, readCurrent_of_fits fits]
  simp only [laterBuilt, same, ne_eq, not_true_eq_false, if_false]

theorem compareCurrentDependencies_unmoved (unmoved : ¬ DependencyMoved before after request) :
    compareCurrentDependencies attempt (ofState after request) = .ok false := by
  obtain ⟨later, laterBuilt⟩ :=
    dependencies_accepted before after request ⟨_, materialized.dependencies⟩
  have same := (dependencies_eq_iff materialized.dependencies laterBuilt).mpr unmoved
  rw [compareCurrentDependencies, validateCurrentShape_ok materialized, laterBuilt, same]
  simp [Except.mapError]

/-- The three comparisons pass exactly when every observation is the one of the snapshot. -/
theorem verified_iff (after : StoreState) :
    (verifyAll schemaOf attempt.snapshot.bindings attempt.masks.bindings
        (ofState after request).bindings = .ok () ∧
      verifyAll schemaOf attempt.snapshot.cascadePredecessors attempt.masks.cascadePredecessors
        (ofState after request).cascadePredecessors = .ok () ∧
      verifyAll schemaOf attempt.snapshot.rootValidations attempt.masks.rootValidations
        (ofState after request).rootValidations = .ok ()) ↔
      ∀ target ∈ request.entityTargets, after.entity target = before.entity target := by
  have normalized := materialized.normalized
  simp only [normalizeCurrent, bind_eq_ok, Except.ok.injEq] at normalized
  obtain ⟨bindings, bindingsBuilt, roots, rootsBuilt, cascades, cascadesBuilt, isSnapshot⟩ :=
    normalized
  rw [materialized.masks] at bindingsBuilt rootsBuilt cascadesBuilt
  simp only [← isSnapshot, materialized.masks]
  rw [masksOf] at bindingsBuilt rootsBuilt cascadesBuilt ⊢
  rw [verifyAll_iff bindingsBuilt (by simp [ofState]), verifyAll_iff rootsBuilt (by simp [ofState]),
    verifyAll_iff cascadesBuilt (by simp [ofState])]
  simp only [ofState, map_inj_left, observe_eq_iff,
    ValidationReadRequest.entityTargets, mem_append, or_imp, forall_and]
  tauto

theorem unchanged_ready (same : Unchanged before after request) :
    readTransactionCurrent schemaOf attempt after request = .ready attempt.snapshot := by
  have read := unchanged_iff_ofState.mp same
  have fits : Fits after request := by
    rw [Fits, read]
    exact materialized.rawFits
  have unmoved := not_moved_of_unchanged same
  obtain ⟨bindings, cascades, roots⟩ := (verified_iff materialized after).mpr same.1
  have normalized := materialized.normalized
  rw [← read] at normalized
  have ready : materializeTransactionCurrent schemaOf attempt
      (ofState after request) = .ok (.ready attempt.snapshot) := by
    rw [materializeTransactionCurrent, compareCurrentDependencies_unmoved materialized unmoved]
    simp only [ok_bind, Bool.false_eq_true, if_false, bindings, cascades, roots, normalized,
      require_pos materialized.fits, true_and, require_pos trivial]
  rw [unmoved_decision materialized fits unmoved, ready]

/-- A changed record behind an equal version is reported as corruption. -/
theorem hidden_change_integrity (fits : Fits after request)
    (unmoved : ¬ DependencyMoved before after request)
    (changed : ¬ Unchanged before after request) :
    readTransactionCurrent schemaOf attempt after request = .integrity := by
  have unverified := mt (verified_iff materialized after).mp fun entities =>
    changed ⟨entities, (not_dependencyMoved.mp unmoved).2⟩
  have refused : ∀ outcome, materializeTransactionCurrent schemaOf attempt
      (ofState after request) ≠ .ok outcome := by
    intro outcome accepted
    rw [materializeTransactionCurrent,
      compareCurrentDependencies_unmoved materialized unmoved] at accepted
    simp only [ok_bind, Bool.false_eq_true, if_false, bind_eq_ok] at accepted
    obtain ⟨_, bindings, _, cascades, _, roots, _⟩ := accepted
    exact unverified ⟨bindings, cascades, roots⟩
  rw [unmoved_decision materialized fits unmoved]
  cases outcome : materializeTransactionCurrent schemaOf attempt
      (ofState after request) with
  | error _ => rfl
  | ok result => exact absurd outcome (refused result)

end

end Decision

end Materialisation

def firstVersion : EntityVersion := NonZeroU64.lit 1

inductive CommittedMutation where
  | create (postImage : StoredEntity)
  | replace (expectedVersion : EntityVersion) (postImage : StoredEntity)
  | delete (expectedVersion : EntityVersion) (target : EntityTarget)

namespace CommittedMutation

def target : CommittedMutation → EntityTarget
  | .create postImage | .replace _ postImage => postImage.target
  | .delete _ target => target

def nextEntityVersion : CommittedMutation → Option EntityVersion
  | .create _ => some firstVersion
  | .replace expectedVersion _ => expectedVersion.checkedNext
  | .delete expectedVersion _ => some expectedVersion

/-- The version that the entity must have; a created entity has none. -/
def expected : CommittedMutation → Option EntityVersion
  | .create _ => none
  | .replace expectedVersion _ | .delete expectedVersion _ => some expectedVersion

def image (version : EntityVersion) : CommittedMutation → Option StoredEntity
  | .create postImage | .replace _ postImage => some { postImage with entityVersion := version }
  | .delete _ _ => none

theorem image_target {mutation : CommittedMutation} {version : EntityVersion}
    {record : StoredEntity}
    (isImage : mutation.image version = some record) : record.target = mutation.target := by
  cases mutation <;> cases isImage <;> rfl

end CommittedMutation

def StoreState.write (mutation : CommittedMutation) (version : EntityVersion) : StoreState where
  entity := fun target =>
    if target = mutation.target then mutation.image version else state.entity target
  generation := state.generation
  keyed := by
    intro target record found
    split at found
    · next same => rw [same, CommittedMutation.image_target found]
    · exact state.keyed target record found

def applyMutation (mutation : CommittedMutation) : Option StoreState :=
  if state.version mutation.target = mutation.expected then
    mutation.nextEntityVersion.map (state.write mutation)
  else none

def IndexEpochPosition.checkedNext : IndexEpochPosition → Option IndexEpochPosition
  | .beforeFirst => some (.value (NonZeroU64.lit 1))
  | .value epoch => epoch.checkedNext.map .value

def advanceGeneration (target : PartitionIndexTarget) : Option StoreState := do
  let next ← IndexEpochPosition.checkedNext (state.generation target)
  some { state with generation := Function.update state.generation target next }

/-- What one committed command wrote. -/
structure CommittedCommand where
  mutations : List CommittedMutation
  generations : List PartitionIndexTarget

def applyCommand (command : CommittedCommand) : Option StoreState := do
  let written ← command.mutations.foldlM applyMutation state
  command.generations.foldlM advanceGeneration written

def applyCommands (commands : List CommittedCommand) : Option StoreState :=
  commands.foldlM applyCommand state

def CommittedMutation.Deletes (target : EntityTarget) (mutation : CommittedMutation) : Prop :=
  ∃ version, mutation = .delete version target

/-- The entity is as it was, or it has a higher version. -/
def Succeeds (target : EntityTarget) (before after : StoreState) : Prop :=
  ∀ old, before.entity target = some old → ∃ new, after.entity target = some new ∧
    (new = old ∨ old.entityVersion.get < new.entityVersion.get)

theorem Succeeds.refl (target : EntityTarget) (state : StoreState) : Succeeds target state state :=
  fun old found => ⟨old, found, Or.inl rfl⟩

theorem Succeeds.trans {target : EntityTarget} {first second third : StoreState}
    (early : Succeeds target first second) (late : Succeeds target second third) :
    Succeeds target first third := by
  intro old found
  obtain ⟨middle, middleFound, earlier⟩ := early old found
  obtain ⟨new, newFound, later⟩ := late middle middleFound
  refine ⟨new, newFound, ?_⟩
  rcases earlier with rfl | earlier
  · exact later
  · rcases later with rfl | later
    · exact Or.inr earlier
    · exact Or.inr (Nat.lt_trans earlier later)

variable {state next : StoreState}

section

variable {mutation : CommittedMutation} (applied : applyMutation state mutation = some next)

include applied

theorem applyMutation_eq_some : state.version mutation.target = mutation.expected ∧
      ∃ version, mutation.nextEntityVersion = some version ∧
        next = state.write mutation version := by
  unfold applyMutation at applied
  split at applied
  · next expected =>
    obtain ⟨version, isNext, isWritten⟩ := Option.map_eq_some_iff.mp applied
    exact ⟨expected, version, isNext, isWritten.symm⟩
  · cases applied

/-- One mutation that does not delete the entity leaves it or raises its version. -/
theorem applyMutation_succeeds {target : EntityTarget} (kept : ¬ mutation.Deletes target) :
    Succeeds target state next := by
  obtain ⟨expected, version, isNext, rfl⟩ := applyMutation_eq_some applied
  intro old found
  by_cases here : target = mutation.target
  · subst here
    have oldVersion : mutation.expected = some old.entityVersion := by
      rw [← expected, StoreState.version, found]
      rfl
    cases mutation with
    | create postImage => cases oldVersion
    | replace expectedVersion postImage =>
      cases oldVersion
      refine ⟨{ postImage with entityVersion := version }, if_pos rfl, Or.inr ?_⟩
      have raised := NonZeroU64.checkedNext_eq_some.mp isNext
      simp only [raised]
      omega
    | delete expectedVersion target => exact absurd ⟨expectedVersion, rfl⟩ kept
  · exact ⟨old, (if_neg here).trans found, Or.inl rfl⟩

end

theorem advanceGeneration_entity {target : PartitionIndexTarget}
    (advanced : advanceGeneration state target = some next) : next.entity = state.entity := by
  simp only [advanceGeneration, Option.bind_eq_bind, Option.bind_eq_some_iff, Option.some.injEq]
    at advanced
  obtain ⟨_, _, rfl⟩ := advanced
  rfl

theorem foldlM_succeeds_of_steps {α : Type} {target : EntityTarget}
    {step : StoreState → α → Option StoreState} {items : List α}
    (steps : ∀ item ∈ items, ∀ state next, step state item = some next → Succeeds target state next)
    {state last : StoreState} (run : items.foldlM step state = some last) :
      Succeeds target state last := by
  induction items generalizing state with
  | nil =>
    cases run
    exact .refl target _
  | cons first rest ih =>
    simp only [foldlM_cons, Option.bind_eq_bind, Option.bind_eq_some_iff] at run
    obtain ⟨middle, stepped, run⟩ := run
    have later := ih (fun item member => steps item (mem_cons_of_mem _ member)) run
    exact (steps first mem_cons_self state middle stepped).trans later

/-- While no command deletes an entity, an equal version means an equal record. -/
theorem applyCommands_succeeds {target : EntityTarget} {commands : List CommittedCommand}
    (kept : ∀ command ∈ commands, ∀ mutation ∈ command.mutations, ¬ mutation.Deletes target)
    (run : applyCommands before commands = some after) : Succeeds target before after := by
  refine foldlM_succeeds_of_steps (fun command member state next applied => ?_) run
  simp only [applyCommand, Option.bind_eq_bind, Option.bind_eq_some_iff] at applied
  obtain ⟨written, mutated, advanced⟩ := applied
  refine .trans (foldlM_succeeds_of_steps (fun mutation isMutation _ _ applied =>
    applyMutation_succeeds applied (kept command member mutation isMutation)) mutated) ?_
  refine foldlM_succeeds_of_steps (fun generation _ _ _ stepped => ?_) advanced
  intro old found
  exact ⟨old, by rw [advanceGeneration_entity stepped]; exact found, Or.inl rfl⟩

theorem unchanged_of_succeeds {request : ValidationReadRequest}
    (succeeds : ∀ target ∈ request.entityTargets, Succeeds target before after)
    (unmoved : ¬ DependencyMoved before after request) : Unchanged before after request := by
  obtain ⟨versions, positions⟩ := not_dependencyMoved.mp unmoved
  refine ⟨fun target isTarget => ?_, positions⟩
  have version := versions target isTarget
  unfold StoreState.version at version
  cases found : before.entity target with
  | none =>
    rw [found, Option.map_none, Option.map_eq_none_iff] at version
    exact version
  | some old =>
    obtain ⟨new, newFound, same | higher⟩ := succeeds target isTarget old found
    · rw [newFound, same]
    · rw [found, newFound, Option.map_some, Option.map_some, Option.some.injEq] at version
      rw [version] at higher
      exact absurd higher (Nat.lt_irrefl _)

/-- Ready on what is unchanged, a retry on what is not. -/
def RetriedWhenStale (schemaOf : EntityTypeId → Option RecordSchema)
    (attempt : MaterializedCommandSnapshot) (before after : StoreState)
    (request : ValidationReadRequest) : Prop :=
  (Unchanged before after request →
    readTransactionCurrent schemaOf attempt after request = .ready attempt.snapshot) ∧
  (¬ Unchanged before after request →
    readTransactionCurrent schemaOf attempt after request = .dependencyChanged)

/-- The recheck retries a stale attempt exactly when a dependency has moved and the records still
fit in one read. When no command in between deletes an observed entity, a change always moves a
dependency. No changed record is ever accepted. -/
theorem stale_attempt_retried_iff {schemaOf : EntityTypeId → Option RecordSchema}
    {overheadBytes : Nat} {before after : StoreState} {request : ValidationReadRequest}
    {attempt : MaterializedCommandSnapshot} {commands : List CommittedCommand}
    (materialized : materializeCommandSnapshot schemaOf overheadBytes
      (TransactionCurrentState.ofState before request) = .ok attempt)
    (committed : applyCommands before commands = some after) :
    (RetriedWhenStale schemaOf attempt before after request ↔ Unchanged before after request ∨
        (Fits after request ∧ DependencyMoved before after request)) ∧
    (Fits after request →
      (∀ command ∈ commands, ∀ mutation ∈ command.mutations, ∀ target ∈ request.entityTargets,
        ¬ mutation.Deletes target) →
      RetriedWhenStale schemaOf attempt before after request) ∧
    (∀ state, readTransactionCurrent schemaOf attempt after request = .ready state →
      Unchanged before after request ∧ state = attempt.snapshot) := by
  have facts := materializedAt_of_ok materialized
  have exactly :
    RetriedWhenStale schemaOf attempt before after request ↔ Unchanged before after request ∨
        (Fits after request ∧ DependencyMoved before after request) := by
    constructor
    · rintro ⟨_, retried⟩
      by_contra neither
      obtain ⟨changed, notBoth⟩ := not_or.mp neither
      have decision := retried changed
      by_cases fits : Fits after request
      · have unmoved : ¬ DependencyMoved before after request := fun moved => notBoth ⟨fits, moved⟩
        rw [hidden_change_integrity facts fits unmoved changed] at decision
        cases decision
      · rw [too_large_refused fits] at decision
        cases decision
    · rintro (same | ⟨fits, moved⟩)
      · exact ⟨fun _ => unchanged_ready facts same, fun changed => absurd same changed⟩
      · exact ⟨fun same => unchanged_ready facts same, fun _ => moved_retried facts fits moved⟩
  refine ⟨exactly, fun fits kept => exactly.mpr ?_, fun state ready => ?_⟩
  · by_cases moved : DependencyMoved before after request
    · exact Or.inr ⟨fits, moved⟩
    · refine Or.inl (unchanged_of_succeeds (fun target isTarget => ?_) moved)
      exact applyCommands_succeeds (fun command isCommand mutation isMutation =>
        kept command isCommand mutation isMutation target isTarget) committed
  · by_cases same : Unchanged before after request
    · rw [unchanged_ready facts same] at ready
      cases ready
      exact ⟨same, rfl⟩
    · by_cases fits : Fits after request
      · by_cases moved : DependencyMoved before after request
        · rw [moved_retried facts fits moved] at ready
          cases ready
        · rw [hidden_change_integrity facts fits moved same] at ready
          cases ready
      · rw [too_large_refused fits] at ready
        cases ready

namespace Sample

def keyField : FieldId := .lit 1

def amountField : FieldId := .lit 2

def schemaOf : EntityTypeId → Option RecordSchema := fun _ =>
  some ⟨[⟨keyField, .u64⟩, ⟨amountField, .u64⟩]⟩

def target : EntityTarget := ⟨.lit 1, ⟨[0x45, 0x01, 0, 0, 0, 1, 0, 0, 0, 0, 0, 0, 0, 7]⟩⟩

theorem fields_increasing (amount : UInt64) :
    Increasing [(keyField, .u64 7), (amountField, .u64 amount)] := by
  refine pairwise_cons.mpr ⟨fun field member => ?_, pairwise_singleton _ _⟩
  rw [mem_singleton.mp member]
  show (1 : UInt32) < 2
  decide

def fields (amount : UInt64) : CanonicalRecord :=
  ⟨[(keyField, .u64 7), (amountField, .u64 amount)], fields_increasing amount⟩

theorem fields_formed (amount : UInt64) :
    CanonicalRecord.new (fields amount).fields = .ok (fields amount).fields :=
  CanonicalRecord.new_of_increasing (Nat.le_of_ble_eq_true rfl) (fields_increasing amount)
    (Nat.le_of_ble_eq_true rfl)

theorem fields_encode (amount : UInt64) : (encodeCanonicalRecord (fields amount)).isOk = true := rfl

def binding : DurableKeySchemaBindingV1 := ⟨[0x6c], .lit 1, List.replicate 32 0⟩

theorem binding_writer : NonZeroU64.lit 1 = binding.contractVersion := rfl

def stored (amount : UInt64) : StoredEntity :=
  ⟨target, firstVersion, .lit 1, binding, fields amount, fields_formed amount, fields_encode amount,
    binding_writer⟩

theorem nothing_keyed (target : EntityTarget) (record : StoredEntity)
    (found : (none : Option StoredEntity) = some record) : record.target = target := by cases found

def vacant : StoreState := ⟨fun _ => none, fun _ => .beforeFirst, nothing_keyed⟩

def holding (amount : UInt64) : StoreState := vacant.write (.create (stored amount)) firstVersion

def create (amount : UInt64) : CommittedCommand := ⟨[.create (stored amount)], []⟩

def replace (amount : UInt64) : CommittedCommand := ⟨[.replace firstVersion (stored amount)], []⟩

/-- The entity after its replacement, at the second version. -/
def replaced (before after : UInt64) : StoreState :=
  (holding before).write (.replace firstVersion (stored after)) (.lit 2)

def delete : CommittedCommand := ⟨[.delete firstVersion target], []⟩

def request : ValidationReadRequest := ⟨[target], [], [], []⟩

def attempt (amount : UInt64) : MaterializedCommandSnapshot :=
  ⟨⟨[.present (stored amount)], [], [], []⟩, [.entityObservation target (some firstVersion)],
    ⟨[none], [], []⟩⟩

section

variable (amount : UInt64)

include amount

theorem entity_holding : (holding amount).entity target = some (stored amount) := rfl

theorem read_holding : ofState (holding amount) request =
    ⟨[.present (stored amount)], [], [], []⟩ := rfl

theorem dependencies_holding : dependenciesFromCurrent ⟨[.present (stored amount)], [], [], []⟩ =
      .ok [.entityObservation target (some firstVersion)] := by
  have listed : (⟨[.present (stored amount)], [], [], []⟩ : TransactionCurrentState).dependencies =
      [.entityObservation target (some firstVersion)] := rfl
  rw [dependenciesFromCurrent, listed, readDependenciesNew, mergeSort_singleton]
  rfl

theorem read_bytes :
    (⟨[.present (stored amount)], [], [], []⟩ : TransactionCurrentState).semanticBytes = 138 := rfl

theorem normalize_holding :
    normalizeCurrent schemaOf (masksOf schemaOf ⟨[.present (stored amount)], [], [], []⟩)
      ⟨[.present (stored amount)], [], [], []⟩ = .ok ⟨[.present (stored amount)], [], [], []⟩ := rfl

theorem materialize_holding : materializeCommandSnapshot schemaOf 200
    (ofState (holding amount) request) = .ok (attempt amount) := by
  rw [read_holding]
  simp only [materializeCommandSnapshot, dependencies_holding, normalize_holding,
    read_bytes, ok_bind]
  rfl

end

theorem holding_changed {before after : UInt64} (apart : before ≠ after) :
    ¬ Unchanged (holding before) (holding after) request := by
  rintro ⟨entities, _⟩
  have same := entities target mem_cons_self
  rw [entity_holding, entity_holding, Option.some.injEq] at same
  have sameFields := congrArg (fun record => record.fields.fields) same
  simp only [stored, fields, List.cons.injEq, Prod.mk.injEq, CanonicalValue.u64.injEq, true_and,
    and_true] at sameFields
  exact apart sameFields.symm

theorem holding_unmoved (before after : UInt64) :
    ¬ DependencyMoved (holding before) (holding after) request := by
  refine not_dependencyMoved.mpr ⟨fun other isTarget => ?_, fun range isRange => by cases isRange⟩
  rw [mem_singleton.mp isTarget]
  rfl

/-- Deleting and creating again leaves only the new record, at the first version. -/
theorem recreate (before after : UInt64) :
    applyCommands (holding before) [delete, create after] = some (holding after) := by
  have run : applyCommands (holding before) [delete, create after] =
      some (((holding before).write (.delete firstVersion target) firstVersion).write
        (.create (stored after)) firstVersion) := rfl
  rw [run, Option.some.injEq]
  refine StoreState.ext (funext fun other => ?_) rfl
  by_cases here : other = target
  · subst here
    rfl
  · have elsewhere : ∀ (state : StoreState) (mutation : CommittedMutation),
        mutation.target = target → (state.write mutation firstVersion).entity other =
          state.entity other := fun state mutation isTarget => if_neg (by rwa [isTarget])
    rw [elsewhere _ _ rfl, elsewhere _ _ rfl, holding, holding, elsewhere _ _ rfl,
      elsewhere _ _ rfl]

theorem create_first (amount : UInt64) :
    applyCommands vacant [create amount] = some (holding amount) := rfl

theorem holding_fits (amount : UInt64) : Fits (holding amount) request := by
  rw [Fits, read_holding, read_bytes]
  decide

end Sample

open Sample

/-- An entity is created and observed, then deleted and created again with another amount. Its
version is the first one both times, and the stale attempt is reported as corruption. -/
theorem recreated_entity_reported_as_corruption :
    applyCommands Sample.vacant [Sample.create 5] = some (Sample.holding 5) ∧
    materializeCommandSnapshot Sample.schemaOf 200
      (TransactionCurrentState.ofState (Sample.holding 5) Sample.request) = .ok (Sample.attempt 5) ∧
    applyCommands (Sample.holding 5) [Sample.delete, Sample.create 6] = some (Sample.holding 6) ∧
    ¬ Unchanged (Sample.holding 5) (Sample.holding 6) Sample.request ∧
    readTransactionCurrent Sample.schemaOf (Sample.attempt 5) (Sample.holding 6) Sample.request =
      .integrity := by
  have changed : ¬ Unchanged (holding 5) (holding 6) request :=
    holding_changed (by decide)
  refine ⟨create_first 5, materialize_holding 5, recreate 5 6, changed, ?_⟩
  exact hidden_change_integrity (materializedAt_of_ok (materialize_holding 5))
    (holding_fits 6) (holding_unmoved 5 6) changed

/-- A command replaces the observed entity before the recheck, and the attempt is retried. -/
theorem stale_attempt_retried_iff_sample :
    applyCommands (Sample.holding 5) [Sample.replace 6] = some (Sample.replaced 5 6) ∧
    ¬ Unchanged (Sample.holding 5) (Sample.replaced 5 6) Sample.request ∧
    readTransactionCurrent Sample.schemaOf (Sample.attempt 5) (Sample.replaced 5 6) Sample.request =
      .dependencyChanged := by
  have committed : applyCommands (holding 5) [replace 6] = some (replaced 5 6) := rfl
  have versions : (replaced 5 6).version target ≠ (holding 5).version target := by
    show some (NonZeroU64.lit 2) ≠ some firstVersion
    decide
  have changed : ¬ Unchanged (holding 5) (replaced 5 6) request := by
    rintro ⟨entities, _⟩
    exact versions (congrArg (Option.map StoredEntity.entityVersion)
      (entities target mem_cons_self))
  have fits : Fits (replaced 5 6) request := by
    show 138 ≤ maxReadSnapshotBytes
    decide
  obtain ⟨exactly, _, _⟩ := stale_attempt_retried_iff (materialize_holding 5) committed
  have retried := exactly.mpr (Or.inr ⟨fits, Or.inl ⟨target, mem_cons_self, versions⟩⟩)
  exact ⟨committed, changed, retried.2 changed⟩

end TransactionCurrent
