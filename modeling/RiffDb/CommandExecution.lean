import RiffDb.EvaluatedCommands
import RiffDb.InputFacts

/-!
# Execution of ordinary and decision plans

A plan is executed against an owned snapshot. The bindings are opened first: each becomes a working
record, or the command ends with the outcome declared for it. An ordinary plan runs its instructions
to the return at their end; a decision plan runs the effects of the action selected for each
decision, and then requirements and return.

Every early return of the source is one here. The pure functions for expressions, events and index
selection are fields of the invocation.
-/

namespace CommandExecution

open CheckedCode EarlyReturn CanonicalScalars CanonicalValues CanonicalRecords ValueTypes KeySchemas
open CommandPlans CommandRuntime EvaluatedCommands InputFacts

inductive ExecutionResult where
  | readOnly (outcome : DeclaredOutcome)
  | commitRequired (command : EvaluatedCommand)
deriving DecidableEq

/-- One evaluation with its snapshot, budget and the pure functions it calls: `eventIntent` seals
an event, `selectedTargets` resolves the entity that an index selected. -/
structure Invocation extends Execution where
  snapshot : ReadSnapshot
  budget : EvaluationBudget
  eventIntent : EventTypeId → CanonicalRecord → Except ExecutionFault EventIntent
  selectedTargets : InputDerivedCommandFacts → Except ExecutionFault InputDerivedCommandFacts

/-- A body that may return a result before its end. -/
abbrev Body := Except (Exit ExecutionFault ExecutionResult)

def EmbeddingWriteIntentV1.sorted (writes : List EmbeddingWriteIntentV1) :
    List EmbeddingWriteIntentV1 :=
  writes.mergeSort fun left right => (left.order right).isLE

variable (inv : Invocation)

def pushEmbeddingWrites (builder : EvaluatedCommandBuilder) (writes : List EmbeddingWriteIntentV1) :
    Except StorageValueError EvaluatedCommandBuilder :=
  (EmbeddingWriteIntentV1.sorted writes).foldlM (·.pushEmbeddingWrite inv.budget) builder

def buildDeclared (outcome : DeclaredOutcome) (mutations : List EntityMutation)
    (events : List EventIntent) (embeddingWrites : List EmbeddingWriteIntentV1) :
    Except StorageValueError EvaluatedCommand := do
  let builder ← EvaluatedCommandBuilder.new inv.snapshot inv.budget
  let builder ← mutations.foldlM (·.pushMutation inv.snapshot inv.budget) builder
  let builder ← pushEmbeddingWrites inv builder embeddingWrites
  let builder ← events.foldlM (·.pushEvent inv.budget) builder
  let builder ← builder.setOutcome inv.budget outcome
  builder.finish inv.snapshot inv.budget

/-- A read-only command must have produced no effect. -/
def finishDeclared (outcome : DeclaredOutcome) (mutations : List EntityMutation)
    (events : List EventIntent) (embeddingWrites : List EmbeddingWriteIntentV1) :
    Except ExecutionFault ExecutionResult :=
  match inv.plan.executionClass with
  | .readOnly => do
    require (mutations = [] ∧ events = [] ∧ embeddingWrites = []) .integrity
    .ok (.readOnly outcome)
  | .idempotentMutation => do
    let command ← (buildDeclared inv outcome mutations events embeddingWrites).mapError
      mapStorageValueError
    .ok (.commitRequired command)

/-- Ends the evaluation with a declared outcome and no effect. -/
def rejectWith {α : Type} (inv : Invocation) (values : ExpressionValues)
    (construction : OutcomeConstruction) : Body α := do
  let outcome ← attempt (constructOutcome inv.toExecution values construction)
  leave (finishDeclared inv outcome [] [] [])

/-- Ends the evaluation with the outcome declared for a binding that could not be opened. -/
def rejectBinding {α : Type} (inv : Invocation) (values : ExpressionValues)
    (binding : BindingPlan) : Body α := do
  let failure ← attempt (okOr binding.failure .integrity)
  rejectWith inv values failure

def requirePredicate (values : ExpressionValues) (predicate : ExprId)
    (reject : OutcomeConstruction) : Body Unit := do
  let holds ← attempt (inv.evaluatePredicate values predicate)
  if holds then .ok () else rejectWith inv values reject

/-- A binding that cannot be opened, one that is open, or one whose initializer is to run. -/
inductive Opened where
  | failed
  | opened (record : CanonicalRecord)
  | initialized (record : CanonicalRecord)

def materializeBound (binding : BindingPlan) (stored : StoredEntityRecordV1) :
    Except ExecutionFault CanonicalRecord := do
  let entity ← okOr (inv.schema.entity binding.entityType) .integrity
  materializeEntityRecord inv.schema entity.record entity.primaryKeyFields binding.keySchema
    stored.target stored.fields

def initializeBound (binding : BindingPlan) (target : EntityTarget) :
    Except ExecutionFault CanonicalRecord := do
  let entity ← okOr (inv.schema.entity binding.entityType) .integrity
  initializeCreateRecord entity.record entity.primaryKeyFields binding.keySchema target

/-- Ordinary plans and collections: a deferred observation is not among their bindings. -/
def openBinding (binding : BindingPlan) (observation : EntityObservation) :
    Except ExecutionFault Opened :=
  match binding.mode, observation with
  | .read, .absent _ | .mutate, .absent _ | .delete, .absent _ | .create, .present _ => .ok .failed
  | .read, .present stored | .mutate, .present stored | .initOrMutate, .present stored
  | .delete, .present stored => (materializeBound inv binding stored).map .opened
  | .create, .absent target => (initializeBound inv binding target).map .opened
  | .initOrMutate, .absent target => (initializeBound inv binding target).map .initialized
  | .observeOrInitialize, _ => .error .integrity

/-- Decision plans: deferred observations are opened, and every new entity is initialized. -/
def openDecisionBinding (binding : BindingPlan) (observation : EntityObservation) :
    Except ExecutionFault Opened :=
  match binding.mode, observation with
  | .read, .absent _ | .mutate, .absent _ | .delete, .absent _ | .create, .present _ => .ok .failed
  | .read, .present stored | .mutate, .present stored | .initOrMutate, .present stored
  | .observeOrInitialize, .present stored | .delete, .present stored =>
      (materializeBound inv binding stored).map .opened
  | .create, .absent target | .initOrMutate, .absent target
  | .observeOrInitialize, .absent target => (initializeBound inv binding target).map .initialized

/-- The assignments of an initializer, each of which sees the ones before it. -/
def runInitializer (binding : BindingPlan) (element : Option CanonicalValue) (records : Records) :
    Except ExecutionFault Records :=
  binding.initializer.foldlM (fun records initialized => do
    let value ← inv.evaluate (inv.values records [] element) initialized.expression
    setWorkingField inv.toExecution records binding.id initialized.fieldId value) records

/-- Installs the working record of a binding; the result says whether it could be opened. -/
def install (binding : BindingPlan) (element : Option CanonicalValue)
    (place : CanonicalRecord → Records) : Opened → Except ExecutionFault (Option Records)
  | .failed => .ok none
  | .opened record => .ok (some (place record))
  | .initialized record => (runInitializer inv binding element (place record)).map some

/-- Opens the bindings of an ordinary plan in order; each record is added at the end. -/
def bindOrdinary (inv : Invocation) :
    List (BindingPlan × EntityObservation) → Records → Body Records
  | [], records => .ok records
  | (binding, observation) :: rest, records => do
    let opened ← attempt (openBinding inv binding observation)
    let installed ← attempt (install inv binding none
      (fun record => records ++ [some record]) opened)
    match installed with
    | some records => bindOrdinary inv rest records
    | none => rejectBinding inv (inv.values records [] none) binding

def materializeRoot (read : RootValidationReadPlan) (observation : EntityObservation) :
    Except ExecutionFault CanonicalRecord :=
  match observation with
  | .present stored => do
    let entity ← okOr (inv.schema.entity read.entityType) .integrity
    materializeEntityRecord inv.schema entity.record entity.primaryKeyFields read.keySchema
      stored.target stored.fields
  | .absent _ => .error .integrity

def materializeRoots : Except ExecutionFault Records :=
  (inv.plan.rootValidationReads.zip inv.snapshot.rootValidations).mapM
    fun (read, observation) => (materializeRoot inv read observation).map some

def embeddingWriteIntent (target : EntityTarget) (bindingId : BindingId) (field : FieldId)
    (modelIdentity modelVersion : CanonicalValue) :
    Except ExecutionFault EmbeddingWriteIntentV1 := do
  let binding ← okOr inv.plan.bindings[bindingId]? .integrity
  require (target.entityTypeId = binding.entityType) .integrity
  let production ← okOr (inv.schema.vectorProductionSpec binding.entityType field) .integrity
  match modelIdentity, modelVersion with
  | .string identity, .string version => do
    let metadata : EmbeddingMetadata := ⟨identity.text, version.text⟩
    require (metadata = production.metadata) .integrity
    .ok ⟨target, field, metadata⟩
  | _, _ => .error .integrity

def runSetField (records roots : Records) (element : Option CanonicalValue) (binding : BindingId)
    (field : FieldId) (value : ExprId) : Except ExecutionFault Records := do
  let value ← inv.evaluate (inv.values records roots element) value
  setWorkingField inv.toExecution records binding field value

/-- The observation at the slot names the entity that the vector belongs to. -/
def runSetEmbedding (records roots : Records) (element : Option CanonicalValue)
    (slot : Except ExecutionFault Nat) (binding : BindingId) (field : FieldId)
    (value modelIdentity modelVersion : ExprId) :
    Except ExecutionFault (EmbeddingWriteIntentV1 × Records) := do
  let values := inv.values records roots element
  let value ← inv.evaluate values value
  let modelIdentity ← inv.evaluate values modelIdentity
  let modelVersion ← inv.evaluate values modelVersion
  let slot ← slot
  let observation ← okOr inv.snapshot.bindings[slot]? .integrity
  let write ← embeddingWriteIntent inv observation.target binding field modelIdentity modelVersion
  let records ← setWorkingField inv.toExecution records binding field value
  .ok (write, records)

/-- A rejection of the workflow instruction ends the evaluation without effect. -/
def runWorkflow (records roots : Records) (element : Option CanonicalValue)
    (slot : Except ExecutionFault Nat) (instruction : Instruction) : Body Records := do
  let slot ← attempt slot
  let observation ← attempt (okOr inv.snapshot.bindings[slot]? .integrity)
  let (rejected, records) ← attempt
    (executeWorkflowInstruction inv.toExecution observation records roots element instruction)
  match rejected with
  | some outcome => leave (finishDeclared inv outcome [] [] [])
  | none => .ok records

/-- What an ordinary plan has accumulated. The builder is created with the first event. -/
structure Working where
  records : Records
  embeddingWrites : List EmbeddingWriteIntentV1
  builder : Option EvaluatedCommandBuilder

def startBuilder (builder : Option EvaluatedCommandBuilder) :
    Except ExecutionFault EvaluatedCommandBuilder :=
  match builder with
  | some builder => .ok builder
  | none => (EvaluatedCommandBuilder.new inv.snapshot inv.budget).mapError mapStorageValueError

def emitEvent (roots : Records) (working : Working) (event : EventConstruction) :
    Except ExecutionFault Working := do
  let payload ← constructRecord inv.toExecution
    (inv.values working.records roots none) event.payload
  require (inv.plan.executionClass = .idempotentMutation) .integrity
  let intent ← inv.eventIntent event.eventType payload
  let builder ← startBuilder inv working.builder
  let builder ← (builder.pushEvent inv.budget intent).mapError mapStorageValueError
  .ok { working with builder := some builder }

def ordinaryStep (roots : Records) (working : Working) : Instruction → Body Working
  | .require predicate reject => do
    requirePredicate inv (inv.values working.records roots none) predicate reject
    .ok working
  | .setField binding field value => do
    let records ← attempt (runSetField inv working.records roots none binding field value)
    .ok { working with records := records }
  | .setEmbedding binding field value modelIdentity modelVersion => do
    let (write, records) ← attempt (runSetEmbedding inv working.records roots none (.ok binding)
      binding field value modelIdentity modelVersion)
    .ok { working with records := records, embeddingWrites := working.embeddingWrites ++ [write] }
  | .workflowTransition transition => do
    let records ← runWorkflow inv working.records roots none (.ok transition.binding)
      (.workflowTransition transition)
    .ok { working with records := records }
  | .workflowLease lease => do
    let records ← runWorkflow inv working.records roots none (.ok lease.binding)
      (.workflowLease lease)
    .ok { working with records := records }
  | .emitEvent event => attempt (emitEvent inv roots working event)
  | .return _ => .error (.fault .integrity)

def validateEntityPostImage (schema : SchemaIr) (declared : RecordSchema)
    (record : CanonicalRecord) : Except ExecutionFault Unit :=
  declared.fields.forM fun field => do
    let value ← okOr (record.recordField field.id) .integrity
    validateValue schema field.valueType value

def postImage (binding : BindingPlan) (observation : EntityObservation) (record : CanonicalRecord) :
    Except ExecutionFault EntityPostImage := do
  let entity ← okOr (inv.schema.entity binding.entityType) .integrity
  validateEntityPostImage inv.schema entity.record record
  (EntityPostImage.new observation.target inv.plan.contractVersion record).mapError
    mapStorageValueError

/-- A delete of an ordinary plan needs the proof that nothing refers to the entity. -/
def requireNoInbound (binding : BindingPlan) : Except ExecutionFault Unit := do
  let check ← okOr (inv.plan.deleteCheck binding.id) .integrity
  require (check.mode = .noInbound) .integrity

def ordinaryMutation (binding : BindingPlan) (observation : EntityObservation)
    (image : EntityPostImage) : Except ExecutionFault EntityMutation :=
  match binding.mode, observation with
  | .create, .absent _ | .initOrMutate, .absent _ => .ok (.create image)
  | .mutate, .present stored | .initOrMutate, .present stored =>
      .ok (.replace stored.entityVersion image)
  | .delete, .present stored => do
    requireNoInbound inv binding
    .ok (.delete stored.entityVersion image)
  | _, _ => .error .integrity

/-- The bindings that write, with their positions, in the order of their targets. -/
def mutableBindings : List (BindingPlan × Nat × EntityObservation) :=
  (inv.plan.bindings.zip (inv.snapshot.bindings.zipIdx.map fun (observation, index) =>
      (index, observation)) |>.filter fun entry => entry.1.mode ≠ .read).mergeSort
    fun left right =>
      (compare (mutationOrderKey left.2.2.target) (mutationOrderKey right.2.2.target)).isLE

def pushMutation (records : Records) (builder : EvaluatedCommandBuilder)
    (entry : BindingPlan × Nat × EntityObservation) :
    Except ExecutionFault EvaluatedCommandBuilder := do
  let (binding, index, observation) := entry
  let record ← okOr records[index]?.join .integrity
  let image ← postImage inv binding observation record
  let mutation ← ordinaryMutation inv binding observation image
  (builder.pushMutation inv.snapshot inv.budget mutation).mapError mapStorageValueError

/-- No two bindings that write may have the same target. -/
def pushMutations (records : Records) (builder : EvaluatedCommandBuilder) :
    Except ExecutionFault EvaluatedCommandBuilder := do
  let bindings := mutableBindings inv
  require ((bindings.zip bindings.tail).all (fun pair =>
    mutationOrderKey pair.1.2.2.target ≠ mutationOrderKey pair.2.2.2.target) = true) .integrity
  bindings.foldlM (pushMutation inv records) builder

def finishSuccess (outcome : DeclaredOutcome) (working : Working) :
    Except ExecutionFault ExecutionResult :=
  match inv.plan.executionClass with
  | .readOnly => .ok (.readOnly outcome)
  | .idempotentMutation => do
    let builder ← startBuilder inv working.builder
    let builder ← pushMutations inv working.records builder
    let builder ← (pushEmbeddingWrites inv builder working.embeddingWrites).mapError
      mapStorageValueError
    let builder ← (builder.setOutcome inv.budget outcome).mapError mapStorageValueError
    let command ← (builder.finish inv.snapshot inv.budget).mapError mapStorageValueError
    .ok (.commitRequired command)

/-- Runs the instructions up to the return. -/
def runOrdinary (inv : Invocation) (roots : Records) :
    List Instruction → Working → Body ExecutionResult
  | [], _ => .error (.fault .integrity)
  | .return construction :: _, working => do
    let outcome ← attempt (constructOutcome inv.toExecution (inv.values working.records roots none)
      construction)
    attempt (finishSuccess inv outcome working)
  | instruction :: rest, working => do
    let working ← ordinaryStep inv roots working instruction
    runOrdinary inv roots rest working

def deleteRanges (plan : CommandPlan) (slot : Slot) : Except ExecutionFault Nat := do
  let binding ← okOr plan.bindings[slot.planIndex]? .integrity
  if binding.mode = .delete then do
    let check ← okOr (plan.deleteCheck binding.id) .integrity
    match check.mode with
    | .noInbound => .ok 0
    | .restrict _ _ => .ok 1
    | .cascade relationships => .ok relationships.length
  else .ok 0

def deleteRangeCount (plan : CommandPlan) (facts : InputDerivedCommandFacts) :
    Except ExecutionFault Nat := do
  let counts ← facts.bindings.mapM (deleteRanges plan)
  .ok counts.sum

/-- Facts that cannot be derived again mean that the admitted input does not fit the plan. -/
def inputFacts : Except ExecutionFault InputDerivedCommandFacts :=
  (deriveInputCommandFacts inv.toExecution).mapError fun _ => .integrity

def deriveTarget (entityType : EntityTypeId) (keySchema : KeySchema)
    (keyExpressions : List ExprId) : Except ExecutionFault EntityTarget := do
  let key ← (deriveEntityKey inv.toExecution none keySchema keyExpressions).mapError
    fun _ => .integrity
  require (EntityKey.entityTypeBytes key = CanonicalScalars.u32ToBeBytes entityType.get) .integrity
  .ok ⟨entityType, key⟩

/-- The entity that an index selected is known only from the snapshot. -/
def validateSelection (facts : InputDerivedCommandFacts) : Except ExecutionFault Unit := do
  let facts ← inv.selectedTargets facts
  require (inv.partitionKey = facts.partitionKey ∧ inv.snapshot.ranges.length = 1 ∧
    inv.snapshot.cascadePredecessors = [] ∧
    inv.snapshot.bindings.map (·.target.key) = facts.bindings.map (·.key) ∧
    inv.snapshot.rootValidations.map (·.target.key) = facts.rootValidations.map (·.key)) .integrity

def validateOrdinaryTargets (facts : InputDerivedCommandFacts) : Except ExecutionFault Unit := do
  let rangeCount ← deleteRangeCount inv.plan facts
  require (inv.snapshot.bindings.length = inv.plan.bindings.length ∧
    inv.snapshot.rootValidations.length = inv.plan.rootValidationReads.length ∧
    inv.snapshot.ranges.length = rangeCount ∧ inv.snapshot.cascadePredecessors = []) .integrity
  let partition ← (evaluatePartition inv.toExecution none).mapError fun _ => .integrity
  require (inv.partitionKey = partition) .integrity
  (inv.plan.bindings.zip inv.snapshot.bindings).forM fun (binding, observation) => do
    let target ← deriveTarget inv binding.entityType binding.keySchema binding.keyExpressions
    require (observation.target = target) .integrity
  (inv.plan.rootValidationReads.zip inv.snapshot.rootValidations).forM fun (read, observation) => do
    let target ← deriveTarget inv read.entityType read.keySchema read.keyExpressions
    require (observation.target = target) .integrity

def validateSnapshotTargets : Except ExecutionFault Unit := do
  let facts ← inputFacts inv
  if inv.plan.indexedSelection.isSome then validateSelection inv facts
  else validateOrdinaryTargets inv facts

def executeOrdinary : Body ExecutionResult := do
  attempt (validateSnapshotTargets inv)
  let records ← bindOrdinary inv (inv.plan.bindings.zip inv.snapshot.bindings) []
  let roots ← attempt (materializeRoots inv)
  runOrdinary inv roots inv.plan.instructions ⟨records, [], none⟩

/-- The bindings that belong to some action; they are opened only if it is selected. -/
def decisionBranchBindings (plan : CommandPlan) : List BindingId :=
  plan.decisions.flatMap fun decision =>
    (decision.whenArms.map (·.action) ++ [decision.elseAction]).flatMap (·.bindings)

/-- Opens one binding of a decision plan at its position. -/
def materializeDecisionBinding (element : Option CanonicalValue) (records : Records) (index : Nat)
    (binding : BindingPlan) (observation : EntityObservation) :
    Except ExecutionFault (Option Records) := do
  let opened ← openDecisionBinding inv binding observation
  install inv binding element (fun record => records.set index (some record)) opened

/-- The first arm whose predicate holds. -/
def selectAction (inv : Invocation) (records roots : Records) (element : Option CanonicalValue)
    (elseAction : CommandDecisionActionV1) :
    List CommandDecisionArmV1 → Except ExecutionFault CommandDecisionActionV1
  | [] => .ok elseAction
  | arm :: rest => do
    let holds ← inv.evaluatePredicate (inv.values records roots element) arm.predicate
    if holds then .ok arm.action else selectAction inv records roots element elseAction rest

/-- What the selected actions have accumulated. -/
structure Effects where
  records : Records
  selected : List BindingId
  events : List EventIntent
  embeddingWrites : List EmbeddingWriteIntentV1

/-- Adds a binding to the set of those that will be written. -/
def select (selected : List BindingId) (binding : BindingId) : List BindingId :=
  if binding ∈ selected then selected else selected ++ [binding]

/-- One instruction of an action. The slot of a binding depends on the element it belongs to. -/
def effectStep (roots : Records) (element : Option CanonicalValue)
    (slot : BindingId → Except ExecutionFault Nat) (effects : Effects) : Instruction → Body Effects
  | .setField binding field value => do
    let records ← attempt (runSetField inv effects.records roots element binding field value)
    .ok { effects with records := records }
  | .setEmbedding binding field value modelIdentity modelVersion => do
    let (write, records) ← attempt (runSetEmbedding inv effects.records roots element (slot binding)
      binding field value modelIdentity modelVersion)
    .ok { effects with records := records, embeddingWrites := effects.embeddingWrites ++ [write] }
  | .emitEvent event => do
    let payload ← attempt (constructRecord inv.toExecution
      (inv.values effects.records roots element)
      event.payload)
    let intent ← attempt (inv.eventIntent event.eventType payload)
    .ok { effects with events := effects.events ++ [intent] }
  | .workflowTransition transition => do
    let records ← runWorkflow inv effects.records roots element (slot transition.binding)
      (.workflowTransition transition)
    .ok { effects with records := records }
  | .workflowLease lease => do
    let records ← runWorkflow inv effects.records roots element (slot lease.binding)
      (.workflowLease lease)
    .ok { effects with records := records }
  | .require _ _ | .return _ => .error (.fault .integrity)

/-- Opens a binding that belongs to the selected action. -/
def openBranchBinding (roots : Records) (element : Option CanonicalValue)
    (slot : BindingId → Except ExecutionFault Nat) (effects : Effects) (bindingId : BindingId) :
    Body Effects := do
  let binding ← attempt (okOr inv.plan.bindings[bindingId]? .integrity)
  let slot ← attempt (slot bindingId)
  let observation ← attempt (okOr inv.snapshot.bindings[slot]? .integrity)
  let installed ← attempt
    (materializeDecisionBinding inv element effects.records bindingId binding observation)
  match installed with
  | none => rejectBinding inv (inv.values effects.records roots element) binding
  | some records => .ok { effects with
      records := records
      selected := if binding.mode = .read then effects.selected
        else select effects.selected bindingId }

/-- Runs one decision: nothing, a rejection, or the bindings and effects of the action. -/
def runDecision (roots : Records) (element : Option CanonicalValue)
    (slot : BindingId → Except ExecutionFault Nat) (effects : Effects)
    (decision : CommandDecisionPlanV1) : Body Effects := do
  let action ← attempt (selectAction inv effects.records roots element decision.elseAction
    decision.whenArms)
  match action with
  | .noEffect => .ok effects
  | .reject outcome => rejectWith inv (inv.values effects.records roots element) outcome
  | .apply bindings instructions => do
    let effects := { effects with selected := select effects.selected decision.binding }
    let effects ← bindings.foldlM (openBranchBinding inv roots element slot) effects
    instructions.foldlM (effectStep inv roots element slot) effects

/-- The requirements and the return that all actions share. -/
def decisionCommonSuffix (inv : Invocation) (records roots : Records) :
    List Instruction → Body DeclaredOutcome
  | [] => .error (.fault .integrity)
  | .require predicate reject :: rest => do
    requirePredicate inv (inv.values records roots none) predicate reject
    decisionCommonSuffix inv records roots rest
  | .return outcome :: _ =>
      attempt (constructOutcome inv.toExecution (inv.values records roots none) outcome)
  | _ :: _ => .error (.fault .integrity)

/-- The mutation of a binding that a decision or a collection writes. -/
def collectionBindingMutation (binding : BindingPlan) (observation : EntityObservation)
    (record : CanonicalRecord) : Except ExecutionFault EntityMutation := do
  let image ← postImage inv binding observation record
  match binding.mode, observation with
  | .create, .absent _ | .initOrMutate, .absent _ | .observeOrInitialize, .absent _ =>
      .ok (.create image)
  | .mutate, .present stored | .initOrMutate, .present stored
  | .observeOrInitialize, .present stored => .ok (.replace stored.entityVersion image)
  | .delete, .present stored => .ok (.delete stored.entityVersion image)
  | _, _ => .error .integrity

def selectedMutation (records : Records) (slot : BindingId → Except ExecutionFault Nat)
    (bindingId : BindingId) : Except ExecutionFault EntityMutation := do
  let slot ← slot bindingId
  let binding ← okOr inv.plan.bindings[bindingId]? .integrity
  let observation ← okOr inv.snapshot.bindings[slot]? .integrity
  let record ← okOr records[bindingId]?.join .integrity
  collectionBindingMutation inv binding observation record

def sortMutations (mutations : List EntityMutation) : List EntityMutation :=
  mutations.mergeSort fun left right =>
    (compare (mutationOrderKey left.target) (mutationOrderKey right.target)).isLE

/-- The bindings in the order of a set. -/
def inOrderOfId (selected : List BindingId) : List BindingId := selected.mergeSort (· ≤ ·)

/-- Opens the bindings that no action owns. -/
def bindDecision (inv : Invocation) :
    List ((BindingPlan × EntityObservation) × Nat) → Records → Body Records
  | [], records => .ok records
  | ((binding, observation), index) :: rest, records =>
      if binding.id ∈ decisionBranchBindings inv.plan then bindDecision inv rest records
      else do
        let installed ← attempt
          (materializeDecisionBinding inv none records index binding observation)
        match installed with
        | some records => bindDecision inv rest records
        | none => rejectBinding inv (inv.values records [] none) binding

def executeOrdinaryDecision : Body ExecutionResult := do
  attempt (validateSnapshotTargets inv)
  let records ← bindDecision inv (inv.plan.bindings.zip inv.snapshot.bindings).zipIdx
    (List.replicate inv.plan.bindings.length none)
  let roots ← attempt (materializeRoots inv)
  let effects ← inv.plan.decisions.foldlM (fun effects decision => do
    require (decision.collectionLocal = false) (.fault .integrity)
    runDecision inv roots none .ok effects decision) ⟨records, [], [], []⟩
  let outcome ← decisionCommonSuffix inv effects.records roots inv.plan.instructions
  let mutations ← attempt ((inOrderOfId effects.selected).mapM
    (selectedMutation inv effects.records .ok))
  attempt (finishDeclared inv outcome (sortMutations mutations) effects.events
    effects.embeddingWrites)

/-- Opens the bindings before the selected one; the first that cannot be opened fails first. -/
def bindUntilSelected (inv : Invocation) (selected : BindingPlan) :
    List ((BindingPlan × Nat)) → Records → Except ExecutionFault (BindingPlan × Records)
  | [], records => .ok (selected, records)
  | (binding, index) :: rest, records =>
      if binding.id ∈ decisionBranchBindings inv.plan
        then bindUntilSelected inv selected rest records
      else do
        let observation ← okOr inv.snapshot.bindings[index]? .integrity
        let installed ← materializeDecisionBinding inv none records index binding observation
        match installed with
        | some records => bindUntilSelected inv selected rest records
        | none => .ok (binding, records)

/-- When the index has no entry for the selection, its failure is the outcome. -/
def emptyOutcome : Body Unit :=
  if inv.snapshot.ranges.head?.all (·.entries ≠ []) then .ok ()
  else do
    let selected ← attempt (okOr inv.plan.indexedSelection .integrity)
    let (failed, records) ← attempt (bindUntilSelected inv selected
      (inv.plan.bindings.zipIdx.take selected.id) (List.replicate inv.plan.bindings.length none))
    rejectBinding inv (inv.values records [] none) failed

def checkSelection : Body Unit :=
  if inv.plan.indexedSelection.isSome then do
    attempt (validateSnapshotTargets inv)
    emptyOutcome inv
  else .ok ()

end CommandExecution
