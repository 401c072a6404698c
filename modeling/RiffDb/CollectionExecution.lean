import RiffDb.CommandExecution

/-!
# Execution of collection plans

A collection plan repeats a template of bindings and instructions for each element of a list. The
bindings before the template are opened once, and instructions after it may write them. A collection
that deletes entities needs evidence from the snapshot: no referring row, or the complete rows that
a cascade removes.

The decision form replaces the template's instructions by decisions, shared or local to the element.
-/

namespace CollectionExecution

open CheckedCode EarlyReturn CanonicalScalars CanonicalValues CanonicalRecords ValueTypes KeySchemas
open CommandPlans CommandRuntime EvaluatedCommands InputFacts CommandExecution CanonicalCodec

variable (inv : Invocation)

variable (expansion : CollectionExpansionPlanV1) (facts : InputDerivedCommandFacts)

def collectionInput : Except ExecutionFault (List CanonicalValue) :=
  match inv.input.recordField expansion.inputField with
  | some (.list elements) => .ok elements
  | _ => .error .integrity

/-- Bytes of the elements, counted on until they exceed the bound. -/
def checkElementBytes (maximum : Nat) : List CanonicalValue → Nat → Except ExecutionFault Unit
  | [], _ => .ok ()
  | element :: rest, observed => do
    let encoded ← (encodeCanonicalValue element).mapError mapCanonicalCodecError
    require (observed + encoded.length ≤ maximum) .resourceLimit
    checkElementBytes maximum rest (observed + encoded.length)

def checkAggregateBytes (elements : List CanonicalValue) : Except ExecutionFault Unit :=
  match expansion.maximumAggregateElementBytes with
  | some maximum => checkElementBytes maximum elements 0
  | none => .ok ()

/-- The decision form encodes every element before it compares the sum. -/
def checkAggregateSum (elements : List CanonicalValue) : Except ExecutionFault Unit :=
  match expansion.maximumAggregateElementBytes with
  | some maximum => do
    let encoded ← elements.mapM fun element =>
      (encodeCanonicalValue element).mapError mapCanonicalCodecError
    require ((encoded.map List.length).sum ≤ maximum) .resourceLimit
  | none => .ok ()

def checkSlotTarget (entityType : Option EntityTypeId) (slot : Slot)
    (observation : EntityObservation) : Except ExecutionFault Unit := do
  let entityType ← okOr entityType .integrity
  require (observation.target.entityTypeId = entityType ∧
    observation.target.key = slot.key) .integrity

/-- Partition, counts and every target are those derived from the input. -/
def validateCollectionSnapshot : Except ExecutionFault Unit := do
  let rangeCount ← deleteRangeCount inv.plan facts
  require (facts.partitionKey = inv.partitionKey ∧
    facts.bindings.length = inv.snapshot.bindings.length ∧
    facts.rootValidations.length = inv.snapshot.rootValidations.length ∧
    inv.snapshot.ranges.length = rangeCount) .integrity
  (facts.bindings.zip inv.snapshot.bindings).forM fun (slot, observation) =>
    checkSlotTarget (inv.plan.bindings[slot.planIndex]?.map (·.entityType)) slot observation
  (facts.rootValidations.zip inv.snapshot.rootValidations).forM fun (slot, observation) =>
    checkSlotTarget (inv.plan.rootValidationReads[slot.planIndex]?.map (·.entityType))
      slot observation

/-- The position of a binding's observation for the element, or of its only one. -/
def collectionBindingSlot (ordinal : Option Nat) (binding : BindingId) :
    Except ExecutionFault Nat :=
  okOr (facts.bindings.findIdx? fun slot => slot.planIndex = binding ∧ slot.ordinal = ordinal)
    .integrity

/-- The observations that belong to the element, or to no element, with their positions. -/
def slotsOf (ordinal : Option Nat) : List ((Slot × EntityObservation) × Nat) :=
  (facts.bindings.zip inv.snapshot.bindings).zipIdx.filter fun entry => entry.1.1.ordinal = ordinal

/-- Reads the roots of the element, or the shared ones, into their positions. -/
def materializeCollectionRoots (ordinal : Option Nat) (roots : Records) :
    Except ExecutionFault Records :=
  ((facts.rootValidations.zip inv.snapshot.rootValidations).filter
      fun entry => entry.1.ordinal = ordinal).foldlM (fun roots (slot, observation) => do
    let read ← okOr inv.plan.rootValidationReads[slot.planIndex]? .integrity
    let root ← materializeRoot inv read observation
    .ok (roots.set slot.planIndex (some root))) roots

/-- Forgets the working records of the template before the next element. -/
def clearTemplate (firstBinding : Nat) (records : Records) : Records :=
  records.zipIdx.map fun (record, index) => if index < firstBinding then record else none

/-- The position of an element fits sixteen bits. -/
def checkOrdinal (ordinal : Nat) : Except ExecutionFault Unit :=
  require (ordinal < 2 ^ 16) .resourceLimit

structure CollectionDeleteEvidence where
  childPositions : List (List Nat)
  failureSlot : Option Nat
  hasCascade : Bool

/-- What the walk over the slots has found; children are numbered in the order they are met. -/
structure EvidenceWalk where
  childPositions : List (List Nat)
  expectedChildren : List EntityTarget
  usedRanges : List Nat
  failureSlot : Option Nat
  hasCascade : Bool

def EvidenceWalk.fail (walk : EvidenceWalk) (slot : Nat) (failed : Bool) : EvidenceWalk :=
  if failed = true ∧ walk.failureSlot = none then { walk with failureSlot := some slot } else walk

def indexOf (sourceEntity : EntityTypeId) (indexId : IndexId) :
    Except ExecutionFault IndexSchema := do
  let source ← okOr (inv.schema.entity sourceEntity) .integrity
  okOr (source.indexes.find? (·.id = indexId)) .integrity

/-- The one range of the snapshot for the reverse index of the deleted key. -/
def exactDeleteRangePosition (sourceEntity : EntityTypeId) (indexId : IndexId)
    (keyValues : List CanonicalValue) : Except ExecutionFault Nat := do
  let index ← indexOf inv sourceEntity indexId
  require (keyValues ≠ [] ∧ keyValues.length ≤ index.keySchema.components.length) .integrity
  let expected ← (index.keySchema.encodeIndexPrefix keyValues).mapError fun _ => .integrity
  let matching := inv.snapshot.ranges.zipIdx.filter fun entry =>
    entry.1.target.indexId = indexId ∧ entry.1.target.prefixBytes = expected.asBytes ∧
      entry.1.target.partitionKey = inv.partitionKey
  match matching with
  | [(_, position)] => .ok position
  | _ => .error .integrity

/-- Each range serves one check. -/
def useRange (walk : EvidenceWalk) (position : Nat) : Except ExecutionFault EvidenceWalk := do
  require (position ∉ walk.usedRanges) .integrity
  .ok { walk with usedRanges := walk.usedRanges ++ [position] }

def rangeEntries (position : Nat) : List IndexRangeEntry :=
  (inv.snapshot.ranges[position]?.map (·.entries)).getD []

/-- The row an index entry belongs to becomes a child of the deleted entity. -/
def addChild (relationship : CascadeRelationshipSpecV1) (index : IndexSchema) (slot : Nat)
    (walk : EvidenceWalk) (entry : IndexRangeEntry) : Except ExecutionFault EvidenceWalk := do
  let decoded ← (index.keySchema.decodeIndex entry.key).mapError fun _ => .integrity
  require (EntityKey.entityTypeBytes decoded.entityKey =
    CanonicalScalars.u32ToBeBytes relationship.sourceEntity.get) .integrity
  .ok { walk with
    childPositions := walk.childPositions.modify slot (· ++ [walk.expectedChildren.length])
    expectedChildren := walk.expectedChildren ++ [⟨relationship.sourceEntity, decoded.entityKey⟩] }

def cascadeRelationship (slot : Nat) (keyValues : List CanonicalValue) (walk : EvidenceWalk)
    (relationship : CascadeRelationshipSpecV1) : Except ExecutionFault EvidenceWalk := do
  let position ← exactDeleteRangePosition inv relationship.sourceEntity
    relationship.indexId keyValues
  let walk ← useRange walk position
  let entries := rangeEntries inv position
  let walk := walk.fail slot (relationship.maximum.toNat < entries.length)
  let index ← indexOf inv relationship.sourceEntity relationship.indexId
  entries.foldlM (addChild relationship index slot) walk

def deleteEvidence (slot : Nat) (keyValues : List CanonicalValue) (walk : EvidenceWalk) :
    DeleteCheckModeV1 → Except ExecutionFault EvidenceWalk
  | .noInbound => .ok walk
  | .restrict sourceEntity indexId => do
    let position ← exactDeleteRangePosition inv sourceEntity indexId keyValues
    let walk ← useRange walk position
    .ok (walk.fail slot (rangeEntries inv position ≠ []))
  | .cascade relationships =>
      relationships.foldlM (cascadeRelationship inv slot keyValues) { walk with hasCascade := true }

def slotEvidence (walk : EvidenceWalk) (entry : (Slot × EntityObservation) × Nat) :
    Except ExecutionFault EvidenceWalk := do
  let binding ← okOr inv.plan.bindings[entry.1.1.planIndex]? .integrity
  if binding.mode = .delete then do
    let check ← okOr (inv.plan.deleteCheck binding.id) .integrity
    let keyValues ← (binding.keySchema.decodeEntity entry.1.1.key).mapError fun _ => .integrity
    deleteEvidence inv entry.2 keyValues walk check.mode
  else .ok walk

def EntityObservation.isPresent : EntityObservation → Bool
  | .present _ => true
  | .absent _ => false

def validateCollectionDeleteEvidence : Except ExecutionFault CollectionDeleteEvidence := do
  let walk ← (facts.bindings.zip inv.snapshot.bindings).zipIdx.foldlM (slotEvidence inv)
    ⟨List.replicate inv.snapshot.bindings.length [], [], [], none, false⟩
  require (walk.usedRanges.length = inv.snapshot.ranges.length) .integrity
  require (walk.expectedChildren = inv.snapshot.cascadePredecessors.map (·.target) ∧
    inv.snapshot.cascadePredecessors.all EntityObservation.isPresent = true) .integrity
  .ok ⟨walk.childPositions, walk.failureSlot, walk.hasCascade⟩

structure Collected where
  records : Records
  roots : Records
  mutations : List EntityMutation
  events : List EventIntent
  embeddingWrites : List EmbeddingWriteIntentV1

/-- Opens bindings at their positions; shared bindings stand before the template. -/
def bindSlots (inv : Invocation) (element : Option CanonicalValue) (limit : Nat) :
    List ((Slot × EntityObservation) × Nat) → Records → Body Records
  | [], records => .ok records
  | ((slot, observation), _) :: rest, records => do
    require (slot.planIndex < limit) (.fault .integrity)
    let binding ← attempt (okOr inv.plan.bindings[slot.planIndex]? .integrity)
    let opened ← attempt (openBinding inv binding observation)
    let installed ← attempt (install inv binding element
      (fun record => records.set slot.planIndex (some record)) opened)
    match installed with
    | some records => bindSlots inv element limit rest records
    | none => rejectBinding inv (inv.values records [] element) binding

/-- One instruction of the template, or of the suffix when there is no element. -/
def collectionStep (element : Option (Nat × CanonicalValue)) (firstBinding : Nat)
    (collected : Collected) : Instruction → Body Collected
  | .require predicate reject => do
    requirePredicate inv (inv.values collected.records collected.roots (element.map (·.2)))
      predicate reject
    .ok collected
  | .setField binding field value => do
    require (element = none → binding < firstBinding) (.fault .integrity)
    let records ← attempt (runSetField inv collected.records collected.roots (element.map (·.2))
      binding field value)
    .ok { collected with records := records }
  | .setEmbedding binding field value modelIdentity modelVersion => do
    require (element = none → binding < firstBinding) (.fault .integrity)
    let (write, records) ← attempt (runSetEmbedding inv collected.records collected.roots
      (element.map (·.2)) (collectionBindingSlot facts (element.map (·.1)) binding)
      binding field value modelIdentity modelVersion)
    .ok { collected with
      records := records
      embeddingWrites := collected.embeddingWrites ++ [write] }
  | .emitEvent event => do
    let payload ← attempt (constructRecord inv.toExecution
      (inv.values collected.records collected.roots (element.map (·.2))) event.payload)
    let intent ← attempt (inv.eventIntent event.eventType payload)
    .ok { collected with events := collected.events ++ [intent] }
  | .workflowTransition _ | .workflowLease _ | .return _ => .error (.fault .integrity)

/-- The delete of a row that refers to the deleted entity, with the record it was observed with. -/
def cascadeMutation (position : Nat) : Except ExecutionFault EntityMutation :=
  match inv.snapshot.cascadePredecessors[position]? with
  | some (.present child) => do
    let entity ← okOr (inv.schema.entity child.target.entityTypeId) .integrity
    validateEntityPostImage inv.schema entity.record child.fields
    let prior ← (EntityPostImage.new child.target inv.plan.contractVersion child.fields).mapError
      mapStorageValueError
    .ok (.delete child.entityVersion prior)
  | _ => .error .integrity

/-- The mutations of one slot: the children of a deleted entity stand before it. -/
def slotMutations (evidence : CollectionDeleteEvidence) (records : Records)
    (entry : (Slot × EntityObservation) × Nat) : Except ExecutionFault (List EntityMutation) := do
  let binding ← okOr inv.plan.bindings[entry.1.1.planIndex]? .integrity
  if binding.mode = .read then .ok []
  else do
    let positions ← if binding.mode = .delete then
        okOr evidence.childPositions[entry.2]? .integrity
      else .ok []
    let children ← positions.mapM (cascadeMutation inv)
    let record ← okOr records[entry.1.1.planIndex]?.join .integrity
    let mutation ← collectionBindingMutation inv binding entry.1.2 record
    .ok (children ++ [mutation])

/-- Shared bindings have no children of their own in the stream of mutations. -/
def sharedMutations (records : Records) (entry : (Slot × EntityObservation) × Nat) :
    Except ExecutionFault (List EntityMutation) := do
  let binding ← okOr inv.plan.bindings[entry.1.1.planIndex]? .integrity
  if binding.mode = .read then .ok []
  else do
    let record ← okOr records[entry.1.1.planIndex]?.join .integrity
    let mutation ← collectionBindingMutation inv binding entry.1.2 record
    .ok [mutation]

def runElement (evidence : CollectionDeleteEvidence) (firstBinding : Nat)
    (template : List Instruction) (collected : Collected) (entry : CanonicalValue × Nat) :
    Body Collected := do
  let (element, ordinal) := entry
  attempt (checkOrdinal ordinal)
  let records ← bindSlots inv (some element) inv.plan.bindings.length
    (slotsOf inv facts (some ordinal)) (clearTemplate firstBinding collected.records)
  let roots ← attempt (materializeCollectionRoots inv facts (some ordinal) collected.roots)
  require (roots.all Option.isSome = true) (.fault .integrity)
  let collected ← template.foldlM (collectionStep inv facts (some (ordinal, element)) firstBinding)
    { collected with records := records, roots := roots }
  let mutations ← attempt ((slotsOf inv facts (some ordinal)).mapM
    (slotMutations inv evidence collected.records))
  .ok { collected with mutations := collected.mutations ++ mutations.flatten }

/-- The outcome declared for a delete that the evidence refuses. -/
def evidenceFailure (slot : Nat) : Except ExecutionFault OutcomeConstruction := do
  let slot ← okOr facts.bindings[slot]? .integrity
  let binding ← okOr inv.plan.bindings[slot.planIndex]? .integrity
  okOr (binding.restrictionFailure.or binding.cascadeFailure) .integrity

/-- A refused delete ends the evaluation with what has been collected by then. -/
def refuseDelete (evidence : CollectionDeleteEvidence) (collected : Collected) : Body Unit :=
  match evidence.failureSlot with
  | none => .ok ()
  | some slot => do
    let failure ← attempt (evidenceFailure inv facts slot)
    let outcome ← attempt (constructOutcome inv.toExecution
      (inv.values (List.replicate inv.plan.bindings.length none) [] none) failure)
    leave (finishDeclared inv outcome collected.mutations collected.events
      collected.embeddingWrites)

/-- The return at the end of the instructions. -/
def returnOutcome (collected : Collected) : Except ExecutionFault DeclaredOutcome :=
  match inv.plan.instructions.getLast? with
  | some (.return construction) => constructOutcome inv.toExecution
      (inv.values collected.records collected.roots none) construction
  | _ => .error .integrity

def executeCollectionCommand : Body ExecutionResult := do
  let expansion ← attempt (okOr inv.plan.collectionExpansion .integrity)
  let elements ← attempt (collectionInput inv expansion)
  attempt (checkAggregateBytes expansion elements)
  let facts ← attempt (inputFacts inv)
  attempt (validateCollectionSnapshot inv facts)
  let instructionEnd := expansion.firstInstruction + expansion.instructionCount
  let firstBinding := expansion.firstBinding
  require (firstBinding + expansion.bindingCount = inv.plan.bindings.length ∧
    expansion.firstInstruction = 0 ∧ instructionEnd < inv.plan.instructions.length)
    (.fault .integrity)
  let evidence ← attempt (validateCollectionDeleteEvidence inv facts)
  let records ← bindSlots inv none firstBinding (slotsOf inv facts none)
    (List.replicate inv.plan.bindings.length none)
  require ((records.take firstBinding).all Option.isSome = true) (.fault .integrity)
  let roots ← attempt (materializeCollectionRoots inv facts none
    (List.replicate inv.plan.rootValidationReads.length none))
  let collected : Collected := ⟨records, roots, [], [], []⟩
  refuseDelete inv facts evidence collected
  let collected ← elements.zipIdx.foldlM (runElement inv facts evidence firstBinding
    (inv.plan.instructions.take instructionEnd)) collected
  let suffix := (inv.plan.instructions.drop instructionEnd).dropLast
  let collected ← suffix.foldlM (collectionStep inv facts none firstBinding)
    { collected with records := clearTemplate firstBinding collected.records }
  let shared ← attempt ((slotsOf inv facts none).mapM (sharedMutations inv collected.records))
  let mutations := collected.mutations ++ shared.flatten
  let mutations := if evidence.hasCascade then mutations else sortMutations mutations
  require ((mutations.map (·.target)).Nodup) (.fault .integrity)
  let outcome ← attempt (returnOutcome inv collected)
  attempt (finishDeclared inv outcome mutations collected.events collected.embeddingWrites)

/-- Opens the bindings of the element, or the shared ones, that no action owns. -/
def bindDecisionSlots (inv : Invocation) (element : Option CanonicalValue) (roots : Records) :
    List ((Slot × EntityObservation) × Nat) → Records → Body Records
  | [], records => .ok records
  | ((slot, observation), _) :: rest, records => do
    let binding ← attempt (okOr inv.plan.bindings[slot.planIndex]? .integrity)
    if binding.id ∈ decisionBranchBindings inv.plan then
      bindDecisionSlots inv element roots rest records
    else do
      let installed ← attempt
        (materializeDecisionBinding inv element records slot.planIndex binding observation)
      match installed with
      | some records => bindDecisionSlots inv element roots rest records
      | none => rejectBinding inv (inv.values records roots element) binding

/-- The decisions of one element, then the mutations of the bindings they selected. -/
def runDecisionElement (firstBinding : Nat) (collected : Collected) (entry : CanonicalValue × Nat) :
    Body Collected := do
  let (element, ordinal) := entry
  attempt (checkOrdinal ordinal)
  let records ← bindDecisionSlots inv (some element) collected.roots
    (slotsOf inv facts (some ordinal)) (clearTemplate firstBinding collected.records)
  let roots ← attempt (materializeCollectionRoots inv facts (some ordinal) collected.roots)
  let slot := collectionBindingSlot facts (some ordinal)
  let effects ← (inv.plan.decisions.filter (·.collectionLocal)).foldlM
    (runDecision inv roots (some element) slot)
    ⟨records, [], collected.events, collected.embeddingWrites⟩
  let mutations ← attempt ((inOrderOfId effects.selected).mapM
    (selectedMutation inv effects.records slot))
  .ok ⟨effects.records, roots, collected.mutations ++ mutations, effects.events,
    effects.embeddingWrites⟩

def executeCollectionDecision : Body ExecutionResult := do
  let expansion ← attempt (okOr inv.plan.collectionExpansion .integrity)
  let elements ← attempt (collectionInput inv expansion)
  attempt (checkAggregateSum expansion elements)
  let facts ← attempt (inputFacts inv)
  attempt (validateCollectionSnapshot inv facts)
  let firstBinding := expansion.firstBinding
  require (firstBinding + expansion.bindingCount = inv.plan.bindings.length) (.fault .integrity)
  let noRoots := List.replicate inv.plan.rootValidationReads.length none
  let records ← bindDecisionSlots inv none noRoots (slotsOf inv facts none)
    (List.replicate inv.plan.bindings.length none)
  let roots ← attempt (materializeCollectionRoots inv facts none noRoots)
  let slot := collectionBindingSlot facts none
  let shared ← (inv.plan.decisions.filter (!·.collectionLocal)).foldlM
    (runDecision inv roots none slot) ⟨records, [], [], []⟩
  let collected ← elements.zipIdx.foldlM (runDecisionElement inv facts firstBinding)
    ⟨shared.records, roots, [], shared.events, shared.embeddingWrites⟩
  let records := clearTemplate firstBinding collected.records
  let sharedMutations ← attempt
    ((inOrderOfId shared.selected).mapM (selectedMutation inv records slot))
  let mutations := sortMutations (collected.mutations ++ sharedMutations)
  require ((mutations.zip mutations.tail).all (fun pair => pair.1.target ≠ pair.2.target) = true)
    (.fault .integrity)
  let outcome ← decisionCommonSuffix inv records collected.roots inv.plan.instructions
  attempt (finishDeclared inv outcome mutations collected.events collected.embeddingWrites)

def executeBody : Body ExecutionResult := do
  attempt (validateRecordExact inv.schema inv.plan.input inv.input)
  checkSelection inv
  if inv.plan.requiresIrV18 then
    if inv.plan.collectionExpansion.isSome then executeCollectionDecision inv
    else executeOrdinaryDecision inv
  else if inv.plan.collectionExpansion.isSome then executeCollectionCommand inv
  else executeOrdinary inv

structure TransactionContext where
  plan : ExecutablePlanRef
  txTime : Timestamp
  partitionKey : PartitionKey
  serviceValues : CanonicalRecord

/-- The pure functions the runtime calls, for every plan. -/
structure Engine where
  evaluator : CommandPlan → ExpressionValues → ExprId → Except EvaluationError CanonicalValue
  eventIntent : EventTypeId → CanonicalRecord → Except ExecutionFault EventIntent
  selectedTargets : CommandPlan → ReadSnapshot → InputDerivedCommandFacts →
    Except ExecutionFault InputDerivedCommandFacts

/-- The bundle's plan, if both the context and the snapshot were made for it. -/
def validateExecutionIdentity (bundle : ContractBundle) (snapshot : ReadSnapshot)
    (context : TransactionContext) : Except ExecutionFault CommandPlan := do
  let plan ← okOr (bundle.command context.plan.commandId) .integrity
  let expected : ExecutablePlanRef := ⟨bundle.lineage, bundle.contractVersion, bundle.bundleHash,
    plan.commandId, plan.planHash⟩
  require (context.plan = expected ∧ snapshot.plan = expected) .integrity
  .ok plan

def invocation (engine : Engine) (bundle : ContractBundle) (plan : CommandPlan)
    (input : CanonicalRecord) (snapshot : ReadSnapshot) (context : TransactionContext)
    (budget : EvaluationBudget) : Invocation where
  schema := bundle.schema
  plan := plan
  input := input
  txTime := context.txTime
  partitionKey := context.partitionKey
  serviceValues := context.serviceValues
  evaluator := engine.evaluator plan
  snapshot := snapshot
  budget := budget
  eventIntent := engine.eventIntent
  selectedTargets := engine.selectedTargets plan snapshot

def executeCommand (engine : Engine) (bundle : ContractBundle) (input : CanonicalRecord)
    (snapshot : ReadSnapshot) (context : TransactionContext) (budget : EvaluationBudget) :
    Except ExecutionFault ExecutionResult := do
  let plan ← validateExecutionIdentity bundle snapshot context
  run (executeBody (invocation engine bundle plan input snapshot context budget))

end CollectionExecution
