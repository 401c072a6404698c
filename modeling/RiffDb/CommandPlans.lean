import RiffDb.CanonicalRecords
import RiffDb.KeySchemas
import RiffDb.ReplicationTypes

/-!
# Checked command plans

The compiled form of a command: the entities it binds, the forward-only instructions it runs, its
decisions and its expansion over a list, with the part of the schema they refer to. Expressions are
positions in the arena of the plan.

Names, hashes and the parts of a plan only the compiler reads are left out.
-/

namespace CommandPlans

open ByteWire CheckedCode CanonicalScalars CanonicalValues CanonicalRecords ValueTypes KeySchemas
open ReplicationTypes

abbrev BindingId := Nat

abbrev ExprId := Nat

abbrev ContractVersion := NonZeroU64

abbrev EntityVersion := NonZeroU64

structure FieldSchema where
  id : FieldId
  valueType : ValueType

structure RecordSchema where
  fields : List FieldSchema

def RecordSchema.field (record : RecordSchema) (id : FieldId) : Option FieldSchema :=
  record.fields.find? (·.id = id)

structure IndexSchema where
  id : IndexId
  keySchema : KeySchema

structure EntitySchema where
  id : EntityTypeId
  record : RecordSchema
  primaryKey : KeySchema
  primaryKeyFields : List FieldId
  indexes : List IndexSchema

structure EnumSchema where
  id : EnumTypeId
  variants : List EnumVariantId

def EnumSchema.containsVariant (enumeration : EnumSchema) (variantId : EnumVariantId) : Bool :=
  variantId ∈ enumeration.variants

/-- The declared model of a vector field that a command may write. -/
@[ext] structure EmbeddingMetadata where
  modelIdentity : String
  modelVersion : String
deriving DecidableEq

structure VectorProductionSpec where
  entityType : EntityTypeId
  field : FieldId
  metadata : EmbeddingMetadata

structure SchemaIr where
  entities : List EntitySchema
  enumerations : List EnumSchema
  vectorProductions : List VectorProductionSpec

namespace SchemaIr

def entity (schema : SchemaIr) (id : EntityTypeId) : Option EntitySchema :=
  schema.entities.find? (·.id = id)

def enumeration (schema : SchemaIr) (id : EnumTypeId) : Option EnumSchema :=
  schema.enumerations.find? (·.id = id)

def vectorProductionSpec (schema : SchemaIr) (entityType : EntityTypeId) (field : FieldId) :
    Option VectorProductionSpec :=
  schema.vectorProductions.find? fun spec => spec.entityType = entityType ∧ spec.field = field

end SchemaIr

inductive BindingMode where
  | read
  | mutate
  | create
  | delete
  | initOrMutate
  | observeOrInitialize
deriving DecidableEq

structure FieldExpression where
  fieldId : FieldId
  expression : ExprId
deriving DecidableEq

structure ObjectConstruction where
  fields : List FieldExpression
deriving DecidableEq

structure OutcomeConstruction where
  outcomeId : OutcomeId
  payload : ObjectConstruction
deriving DecidableEq

structure EventConstruction where
  eventType : EventTypeId
  payload : ObjectConstruction
deriving DecidableEq

structure BindingPlan where
  id : BindingId
  mode : BindingMode
  entityType : EntityTypeId
  keySchema : KeySchema
  keyExpressions : List ExprId
  initializer : List FieldExpression
  failure : Option OutcomeConstruction
  restrictionFailure : Option OutcomeConstruction
  cascadeFailure : Option OutcomeConstruction
  indexedSelection : Bool

/-- Whether the key depends on a binding or on the collection element is read off the arena. -/
structure RootValidationReadPlan where
  entityType : EntityTypeId
  keySchema : KeySchema
  keyExpressions : List ExprId
  usesBinding : Bool
  usesElement : Bool

structure CascadeRelationshipSpecV1 where
  sourceEntity : EntityTypeId
  indexId : IndexId
  maximum : UInt16
deriving DecidableEq

inductive DeleteCheckModeV1 where
  | noInbound
  | restrict (sourceEntity : EntityTypeId) (indexId : IndexId)
  | cascade (relationships : List CascadeRelationshipSpecV1)
deriving DecidableEq

structure DeleteCheckPlanV1 where
  binding : BindingId
  mode : DeleteCheckModeV1
deriving DecidableEq

/-- Fields and bounds of a declared lease. The compiler refuses a lease whose fields are not
pairwise distinct. -/
structure WorkflowLeaseFields where
  ownerField : FieldId
  expiryField : FieldId
  fencingTokenField : FieldId
  attemptField : Option FieldId
  minimumDurationSeconds : UInt64
  maximumDurationSeconds : UInt64
  distinct : ([ownerField, expiryField, fencingTokenField] ++ attemptField.toList).Nodup
deriving DecidableEq

inductive WorkflowLeaseOperation where
  | claim (owner durationSeconds expectedRevision : ExprId)
      (stale unavailable invalid exhausted : OutcomeConstruction)
  | renew (owner fencingToken durationSeconds expectedRevision : ExprId)
      (stale invalid expired exhausted : OutcomeConstruction)
  | release (owner fencingToken expectedRevision : ExprId) (stale invalid : OutcomeConstruction)
  | expire (expectedRevision : ExprId) (stale active : OutcomeConstruction)
  | fence (owner fencingToken expectedRevision : ExprId)
      (stale invalid expired : OutcomeConstruction)
deriving DecidableEq

structure WorkflowTransition where
  binding : BindingId
  stateField : FieldId
  sourceStates : List EnumVariantId
  destination : EnumVariantId
  expectedRevision : ExprId
  stale : OutcomeConstruction
  illegal : OutcomeConstruction
deriving DecidableEq

structure WorkflowLease where
  binding : BindingId
  fields : WorkflowLeaseFields
  operation : WorkflowLeaseOperation
deriving DecidableEq

inductive Instruction where
  | require (predicate : ExprId) (reject : OutcomeConstruction)
  | setField (binding : BindingId) (field : FieldId) (value : ExprId)
  | setEmbedding (binding : BindingId) (field : FieldId) (value modelIdentity modelVersion : ExprId)
  | workflowTransition (transition : WorkflowTransition)
  | workflowLease (lease : WorkflowLease)
  | emitEvent (event : EventConstruction)
  | return (outcome : OutcomeConstruction)
deriving DecidableEq

inductive CommandDecisionActionV1 where
  | apply (bindings : List BindingId) (instructions : List Instruction)
  | noEffect
  | reject (outcome : OutcomeConstruction)

def CommandDecisionActionV1.bindings : CommandDecisionActionV1 → List BindingId
  | .apply bindings _ => bindings
  | .noEffect | .reject _ => []

structure CommandDecisionArmV1 where
  predicate : ExprId
  action : CommandDecisionActionV1

structure CommandDecisionPlanV1 where
  binding : BindingId
  collectionLocal : Bool
  whenArms : List CommandDecisionArmV1
  elseAction : CommandDecisionActionV1

structure CollectionExpansionPlanV1 where
  inputField : FieldId
  minimumElements : Nat
  maximumElements : Nat
  elementType : ValueType
  firstBinding : BindingId
  bindingCount : Nat
  firstInstruction : Nat
  instructionCount : Nat
  maximumAggregateElementBytes : Option Nat

structure LocalityPlan where
  partitionSchema : KeySchema
  partitionExpression : ExprId

inductive ExecutionClass where
  | readOnly
  | idempotentMutation
deriving DecidableEq

/-- Every return of a checked plan constructs the declared success outcome. -/
structure CommandPlan where
  commandId : CommandId
  planHash : Bytes
  contractVersion : ContractVersion
  input : RecordSchema
  successOutcome : OutcomeId
  bindings : List BindingPlan
  deleteChecks : List DeleteCheckPlanV1
  rootValidationReads : List RootValidationReadPlan
  locality : LocalityPlan
  instructions : List Instruction
  decisions : List CommandDecisionPlanV1
  collectionExpansion : Option CollectionExpansionPlanV1
  executionClass : ExecutionClass
  requiresIrV18 : Bool
  returns :
    ∀ outcome, Instruction.return outcome ∈ instructions → outcome.outcomeId = successOutcome

namespace CommandPlan

/-- The binding at the position its identifier names. -/
def binding? (plan : CommandPlan) (id : BindingId) : Option BindingPlan :=
  plan.bindings[id]?.filter (·.id = id)

def indexedSelection (plan : CommandPlan) : Option BindingPlan :=
  plan.bindings.find? (·.indexedSelection)

def deleteCheck (plan : CommandPlan) (id : BindingId) : Option DeleteCheckPlanV1 :=
  plan.deleteChecks.find? (·.binding = id)

end CommandPlan

/-- A bundle with the commands of one contract version. -/
structure ContractBundle where
  schema : SchemaIr
  lineage : String
  contractVersion : ContractVersion
  bundleHash : Bytes
  commands : List CommandPlan

def ContractBundle.command (bundle : ContractBundle) (id : CommandId) : Option CommandPlan :=
  bundle.commands.find? (·.commandId = id)

structure ExecutablePlanRef where
  lineage : String
  contractVersion : ContractVersion
  bundleHash : Bytes
  commandId : CommandId
  planHash : Bytes
deriving DecidableEq

/-- A complete entity identity. -/
@[ext] structure EntityTarget where
  entityTypeId : EntityTypeId
  key : EntityKey
deriving DecidableEq

/-- The type that the envelope of an entity key names. -/
def EntityKey.entityTypeBytes (key : EntityKey) : Bytes :=
  slice key.asBytes 2 typedKeyEnvelopeBytes

structure StoredEntityRecordV1 where
  target : EntityTarget
  entityVersion : EntityVersion
  fields : CanonicalRecord
deriving DecidableEq

inductive EntityObservation where
  | absent (target : EntityTarget)
  | present (record : StoredEntityRecordV1)
deriving DecidableEq

namespace EntityObservation

def target : EntityObservation → EntityTarget
  | .absent target => target
  | .present record => record.target

def expectedState : EntityObservation → Option EntityVersion
  | .absent _ => none
  | .present record => some record.entityVersion

end EntityObservation

end CommandPlans
