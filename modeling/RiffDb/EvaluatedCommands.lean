import RiffDb.CommandRuntime

/-!
# Snapshots and evaluated commands

A snapshot is owned: the entities that the command binds, those that its checks read, the rows a
cascade would remove and ranges of secondary indexes, all of one view. An evaluated command is the
outcome with the mutations, embedding writes and events to be committed with it.

The builder charges each part before it keeps it, refuses a second mutation of one target, and
refuses mutations out of order unless the snapshot has cascade predecessors. Byte counts are not
bounded by a machine word; the budget is far below it.
-/

namespace EvaluatedCommands

open ByteWire CheckedCode CanonicalScalars CanonicalValues CanonicalRecords ValueTypes KeySchemas
open CommandPlans CommandRuntime CanonicalCodec

/-- A range of one index in one partition: the entries whose key starts with the bytes. -/
@[ext] structure IndexRangeTarget where
  indexId : IndexId
  prefixBytes : Bytes
  partitionKey : PartitionKey
  pointValidated : Bool
deriving DecidableEq

structure IndexRangeEntry where
  key : IndexEntryKey
  coveredValues : CanonicalRecord
deriving DecidableEq

structure IndexRangeObservation where
  target : IndexRangeTarget
  entries : List IndexRangeEntry
deriving DecidableEq

/-- `planBytes` is the fixed charge of the plan, the request and the dependencies. -/
structure ReadSnapshot where
  plan : ExecutablePlanRef
  planBytes : Nat
  bindings : List EntityObservation
  rootValidations : List EntityObservation
  cascadePredecessors : List EntityObservation
  ranges : List IndexRangeObservation

namespace ReadSnapshot

def observations (snapshot : ReadSnapshot) : List EntityObservation :=
  snapshot.bindings ++ snapshot.rootValidations ++ snapshot.cascadePredecessors

/-- The dependency recorded for the target: `some none` says that it was absent. -/
def expectedEntityState (snapshot : ReadSnapshot) (target : EntityTarget) :
    Option (Option EntityVersion) :=
  (snapshot.observations.find? (·.target = target)).map (·.expectedState)

/-- Dependencies of equal targets are kept once. -/
def dependencyCount (snapshot : ReadSnapshot) : Nat :=
  (snapshot.observations.map (·.target)).dedup.length +
    (snapshot.ranges.map (·.target)).dedup.length

def targetCount (snapshot : ReadSnapshot) : Nat :=
  snapshot.bindings.length + snapshot.rootValidations.length +
    snapshot.cascadePredecessors.length + snapshot.ranges.length

end ReadSnapshot

def EntityTarget.semanticBytes (target : EntityTarget) : Nat := target.key.asBytes.length + (4 + 4)

/-- Type, length and bytes of the key: mutations are ordered by these bytes. -/
def mutationOrderKey (target : EntityTarget) : Bytes :=
  [0x01] ++ u32ToBeBytes target.entityTypeId.get ++ beBytes 4 target.key.asBytes.length ++
    target.key.asBytes

structure EntityPostImage where
  target : EntityTarget
  writtenByContract : ContractVersion
  fields : CanonicalRecord
  encodedLength : Nat
deriving DecidableEq

def EntityPostImage.new (target : EntityTarget) (writtenByContract : ContractVersion)
    (fields : CanonicalRecord) : Except StorageValueError EntityPostImage := do
  let encoded ← (encodeCanonicalRecord fields).mapError canonicalCodecStorageError
  require (encoded.length ≤ maxCanonicalDocumentBytes) .limitExceeded
  .ok ⟨target, writtenByContract, fields, encoded.length⟩

inductive EntityMutation where
  | create (postImage : EntityPostImage)
  | replace (expectedVersion : EntityVersion) (postImage : EntityPostImage)
  | delete (expectedVersion : EntityVersion) (priorImage : EntityPostImage)
deriving DecidableEq

namespace EntityMutation

def postImage : EntityMutation → EntityPostImage
  | .create image | .replace _ image | .delete _ image => image

def target (mutation : EntityMutation) : EntityTarget := mutation.postImage.target

def isDelete : EntityMutation → Bool
  | .delete _ _ => true
  | _ => false

def expectedVersion : EntityMutation → Option EntityVersion
  | .create _ => none
  | .replace version _ | .delete version _ => some version

def semanticBytes (mutation : EntityMutation) : Nat :=
  EntityTarget.semanticBytes mutation.target + 8 + (mutation.postImage.encodedLength + 4) +
    match mutation with
    | .create _ => 1
    | .replace _ _ | .delete _ _ => 1 + 8

end EntityMutation

structure EmbeddingWriteIntentV1 where
  target : EntityTarget
  vectorField : FieldId
  metadata : EmbeddingMetadata
deriving DecidableEq

namespace EmbeddingWriteIntentV1

def semanticBytes (write : EmbeddingWriteIntentV1) : Nat :=
  EntityTarget.semanticBytes write.target + (4 + 4 + write.metadata.modelIdentity.utf8ByteSize) +
    (4 + write.metadata.modelVersion.utf8ByteSize)

/-- Target first, then field. -/
def order (left right : EmbeddingWriteIntentV1) : Ordering :=
  (compare left.target.entityTypeId.get right.target.entityTypeId.get).then
    ((compare left.target.key.asBytes right.target.key.asBytes).then
      (compare left.vectorField.get right.vectorField.get))

end EmbeddingWriteIntentV1

/-- An event before it has a sequence; the policy anchor is part of its byte count only. -/
structure EventIntent where
  eventTypeId : EventTypeId
  payload : CanonicalRecord
  semanticBytes : Nat
deriving DecidableEq

structure EvaluationBudget where
  maximumReadTargets : Nat
  maximumReadDependencies : Nat
  maximumMutations : Nat
  maximumEvents : Nat
  maximumSemanticBytes : Nat

structure EvaluatedCommand where
  mutations : List EntityMutation
  embeddingWrites : List EmbeddingWriteIntentV1
  eventIntents : List EventIntent
  outcome : DeclaredOutcome
deriving DecidableEq

def DeclaredOutcome.semanticBytes (outcome : DeclaredOutcome) : Except StorageValueError Nat := do
  let encoded ← (encodeCanonicalRecord outcome.value).mapError canonicalCodecStorageError
  .ok (encoded.length + 4 + 4)

def validateEvaluatedSnapshotBudget (snapshot : ReadSnapshot) (budget : EvaluationBudget) :
    Except StorageValueError Unit :=
  require (snapshot.targetCount ≤ budget.maximumReadTargets ∧
    snapshot.dependencyCount ≤ budget.maximumReadDependencies) .limitExceeded

/-- Mutations must follow each other in strict order, except with cascade predecessors. -/
def inOrder (snapshot : ReadSnapshot) (priorKey : Option Bytes) (key : Bytes) : Bool :=
  !snapshot.cascadePredecessors.isEmpty || priorKey.all (compare · key = .lt)

def validateEvaluatedMutation (snapshot : ReadSnapshot) (mutation : EntityMutation)
    (priorKey : Option Bytes) : Except StorageValueError Bytes := do
  require (mutation.postImage.writtenByContract = snapshot.plan.contractVersion) .identityMismatch
  require (snapshot.expectedEntityState mutation.target = some mutation.expectedVersion)
    .identityMismatch
  let key := mutationOrderKey mutation.target
  require (inOrder snapshot priorKey key = true) .nonCanonicalOrder
  .ok key

structure EvaluatedCommandBuilder where
  mutations : List EntityMutation
  embeddingWrites : List EmbeddingWriteIntentV1
  eventIntents : List EventIntent
  outcome : Option DeclaredOutcome
  priorMutationKey : Option Bytes
  semanticBytes : Nat

namespace EvaluatedCommandBuilder

variable (snapshot : ReadSnapshot) (budget : EvaluationBudget)

def new : Except StorageValueError EvaluatedCommandBuilder := do
  validateEvaluatedSnapshotBudget snapshot budget
  require (snapshot.planBytes ≤ budget.maximumSemanticBytes) .limitExceeded
  .ok ⟨[], [], [], none, none, snapshot.planBytes⟩

def charge (builder : EvaluatedCommandBuilder) (bytes : Nat) : Except StorageValueError Nat := do
  require (builder.semanticBytes + bytes ≤ budget.maximumSemanticBytes) .limitExceeded
  .ok (builder.semanticBytes + bytes)

def pushMutation (builder : EvaluatedCommandBuilder) (mutation : EntityMutation) :
    Except StorageValueError EvaluatedCommandBuilder := do
  require (builder.mutations.length < budget.maximumMutations) .limitExceeded
  require (mutation.target ∉ builder.mutations.map (·.target)) .duplicate
  let key ← validateEvaluatedMutation snapshot mutation builder.priorMutationKey
  let next ← builder.charge budget mutation.semanticBytes
  .ok { builder with
    mutations := builder.mutations ++ [mutation]
    priorMutationKey := some key
    semanticBytes := next }

def pushEvent (builder : EvaluatedCommandBuilder) (event : EventIntent) :
    Except StorageValueError EvaluatedCommandBuilder := do
  require (builder.eventIntents.length < budget.maximumEvents) .limitExceeded
  let next ← builder.charge budget event.semanticBytes
  .ok { builder with eventIntents := builder.eventIntents ++ [event], semanticBytes := next }

def pushEmbeddingWrite (builder : EvaluatedCommandBuilder) (write : EmbeddingWriteIntentV1) :
    Except StorageValueError EvaluatedCommandBuilder := do
  require (builder.embeddingWrites.length < budget.maximumMutations ∧
    builder.embeddingWrites.getLast?.all (·.order write = .lt) = true) .nonCanonicalOrder
  let next ← builder.charge budget write.semanticBytes
  .ok { builder with embeddingWrites := builder.embeddingWrites ++ [write], semanticBytes := next }

def setOutcome (builder : EvaluatedCommandBuilder) (outcome : DeclaredOutcome) :
    Except StorageValueError EvaluatedCommandBuilder := do
  require (builder.outcome = none) .duplicate
  let bytes ← DeclaredOutcome.semanticBytes outcome
  let next ← builder.charge budget bytes
  .ok { builder with outcome := some outcome, semanticBytes := next }

end EvaluatedCommandBuilder

/-- The checks of the constructor over the mutations, from the first on. -/
def checkMutations (snapshot : ReadSnapshot) :
    List EntityMutation → List EntityTarget → Option Bytes → Except StorageValueError Unit
  | [], _, _ => .ok ()
  | mutation :: rest, seen, priorKey => do
    require (mutation.target ∉ seen) .duplicate
    let key ← validateEvaluatedMutation snapshot mutation priorKey
    checkMutations snapshot rest (mutation.target :: seen) (some key)

/-- A write belongs to an entity that the command creates or replaces. -/
def belongs (mutations : List EntityMutation) (write : EmbeddingWriteIntentV1) : Bool :=
  (mutations.find? (·.target = write.target)).any fun mutation => !mutation.isDelete

def EvaluatedCommand.newWithEmbeddingWrites (snapshot : ReadSnapshot) (budget : EvaluationBudget)
    (mutations : List EntityMutation) (embeddingWrites : List EmbeddingWriteIntentV1)
    (eventIntents : List EventIntent) (outcome : DeclaredOutcome) :
    Except StorageValueError EvaluatedCommand := do
  validateEvaluatedSnapshotBudget snapshot budget
  require (mutations.length ≤ budget.maximumMutations ∧
    eventIntents.length ≤ budget.maximumEvents) .limitExceeded
  checkMutations snapshot mutations [] none
  require (embeddingWrites.length ≤ budget.maximumMutations ∧
    (embeddingWrites.zip embeddingWrites.tail).all (fun pair => pair.1.order pair.2 = .lt) = true ∧
    embeddingWrites.all (belongs mutations) = true) .identityMismatch
  let outcomeBytes ← DeclaredOutcome.semanticBytes outcome
  require (snapshot.planBytes + (mutations.map (·.semanticBytes)).sum +
    (embeddingWrites.map (·.semanticBytes)).sum + (eventIntents.map (·.semanticBytes)).sum +
    outcomeBytes ≤ budget.maximumSemanticBytes) .limitExceeded
  .ok ⟨mutations, embeddingWrites, eventIntents, outcome⟩

def EvaluatedCommandBuilder.finish (snapshot : ReadSnapshot) (budget : EvaluationBudget)
    (builder : EvaluatedCommandBuilder) : Except StorageValueError EvaluatedCommand := do
  let outcome ← okOr builder.outcome .invalidShape
  EvaluatedCommand.newWithEmbeddingWrites snapshot budget builder.mutations builder.embeddingWrites
    builder.eventIntents outcome

section Builder

variable {snapshot : ReadSnapshot} {budget : EvaluationBudget}
  {builder result : EvaluatedCommandBuilder}

open EvaluatedCommandBuilder

theorem new_eq_ok (started : new snapshot budget = .ok result) :
    result = ⟨[], [], [], none, none, snapshot.planBytes⟩ := by
  simp only [new, bind_eq_ok, Except.ok.injEq] at started
  obtain ⟨_, _, _, _, rfl⟩ := started
  rfl

variable {outcome : DeclaredOutcome}

theorem setOutcome_eq_ok (set : builder.setOutcome budget outcome = .ok result) :
    result.mutations = builder.mutations ∧ result.embeddingWrites = builder.embeddingWrites ∧
      result.eventIntents = builder.eventIntents ∧ result.outcome = some outcome := by
  simp only [setOutcome, bind_eq_ok, Except.ok.injEq] at set
  obtain ⟨_, _, _, _, _, _, rfl⟩ := set
  exact ⟨rfl, rfl, rfl, rfl⟩

variable {command : EvaluatedCommand}

theorem newWithEmbeddingWrites_eq_ok {mutations : List EntityMutation}
    {embeddingWrites : List EmbeddingWriteIntentV1} {eventIntents : List EventIntent}
    (formed : EvaluatedCommand.newWithEmbeddingWrites snapshot budget mutations embeddingWrites
      eventIntents outcome = .ok command) :
    command = ⟨mutations, embeddingWrites, eventIntents, outcome⟩ ∧
      checkMutations snapshot mutations [] none = .ok () := by
  simp only [EvaluatedCommand.newWithEmbeddingWrites, bind_eq_ok, Except.ok.injEq] at formed
  obtain ⟨_, _, _, _, _, checked, _, _, _, _, _, _, rfl⟩ := formed
  exact ⟨rfl, checked⟩

/-- The finished command is what the builder collected. -/
theorem finish_eq_ok (finished : builder.finish snapshot budget = .ok command) :
    builder.outcome = some command.outcome ∧ command.mutations = builder.mutations ∧
      command.embeddingWrites = builder.embeddingWrites ∧
        command.eventIntents = builder.eventIntents ∧
      checkMutations snapshot command.mutations [] none = .ok () := by
  simp only [EvaluatedCommandBuilder.finish, bind_eq_ok, okOr_eq_ok] at finished
  obtain ⟨outcome, held, formed⟩ := finished
  obtain ⟨rfl, checked⟩ := newWithEmbeddingWrites_eq_ok formed
  exact ⟨held, rfl, rfl, rfl, checked⟩

end Builder

end EvaluatedCommands
