import RiffDb.CommandPlans
import RiffDb.CanonicalCodec
import RiffDb.EarlyReturn

/-!
# Working records and workflow instructions

The part of the runtime that all plans share: entities are materialised into working records,
instructions assign fields of them, and a workflow instruction checks a revision and either rejects
with a declared outcome or assigns its fields.

The evaluator of expressions is any function of the values in scope.
-/

namespace CommandRuntime

open ByteWire CheckedCode EarlyReturn CanonicalScalars CanonicalValues CanonicalRecords ValueTypes
open KeySchemas CommandPlans CanonicalCodec

inductive EvaluationError where
  | arithmetic
  | integrity
deriving DecidableEq

inductive ExecutionFault where
  | arithmetic
  | resourceLimit
  | integrity
deriving DecidableEq

inductive StorageValueError where
  | empty
  | limitExceeded
  | nonCanonicalOrder
  | duplicate
  | identityMismatch
  | invalidShape
  | sizeOverflow
deriving DecidableEq

def ExecutionFault.ofEvaluation : EvaluationError → ExecutionFault
  | .arithmetic => .arithmetic
  | .integrity => .integrity

def mapStorageValueError : StorageValueError → ExecutionFault
  | .limitExceeded => .resourceLimit
  | .empty | .nonCanonicalOrder | .duplicate | .identityMismatch | .invalidShape
  | .sizeOverflow => .integrity

def mapValueError : ValueError → ExecutionFault
  | .stringTooLong _ _ | .bytesTooLong _ _ | .tooManyListEntries _ _ | .tooManyRecordFields _ _
  | .nestingTooDeep _ _ => .resourceLimit
  | .duplicateRecordField _ => .integrity

def mapCanonicalCodecError : CanonicalCodecError → ExecutionFault
  | .documentTooLarge _ _ | .stringTooLarge _ _ | .bytesTooLarge _ _ | .tooManyEntries _ _ _
  | .nestingTooDeep _ _ => .resourceLimit
  | _ => .integrity

def canonicalCodecStorageError : CanonicalCodecError → StorageValueError
  | .documentTooLarge _ _ => .limitExceeded
  | _ => .invalidShape

def encodeCanonicalRecord (record : CanonicalRecord) : Except CanonicalCodecError Bytes :=
  encodeCanonicalValue (.record record.fields)

abbrev Records := List (Option CanonicalRecord)

/-- Values an expression may refer to. The element is present inside a collection template. -/
structure RuntimeValues where
  input : CanonicalRecord
  records : Records
  roots : Records
  txTime : Timestamp
  serviceValues : CanonicalRecord
  element : Option CanonicalValue

inductive ExpressionValues where
  | input (input : CanonicalRecord) (element : Option CanonicalValue)
  | runtime (values : RuntimeValues)

/-- What every function of one evaluation is passed: the schema of the bundle, the plan, the
normalized input, the admitted context and the evaluator. -/
structure Execution where
  schema : SchemaIr
  plan : CommandPlan
  input : CanonicalRecord
  txTime : Timestamp
  partitionKey : PartitionKey
  serviceValues : CanonicalRecord
  evaluator : ExpressionValues → ExprId → Except EvaluationError CanonicalValue

namespace Execution

def values (exec : Execution) (records roots : Records) (element : Option CanonicalValue) :
    ExpressionValues :=
  .runtime ⟨exec.input, records, roots, exec.txTime, exec.serviceValues, element⟩

def evaluate (exec : Execution) (values : ExpressionValues) (expression : ExprId) :
    Except ExecutionFault CanonicalValue :=
  (exec.evaluator values expression).mapError ExecutionFault.ofEvaluation

def evaluatePredicate (exec : Execution) (values : ExpressionValues) (expression : ExprId) :
    Except ExecutionFault Bool := do
  match ← exec.evaluate values expression with
  | .bool value => .ok value
  | _ => .error .integrity

end Execution

/-- A value of the type, with declared enumeration variants at every level. -/
def validateValue (schema : SchemaIr) (valueType : ValueType) (value : CanonicalValue) :
    Except ExecutionFault Unit := do
  require (valueType.accepts value = true) .integrity
  if value = .null then .ok ()
  else match valueType with
    | .optional inner => validateValue schema inner value
    | .enumeration enumId =>
      match value with
      | .enum typeId variantId =>
        require (typeId = enumId ∧
          (schema.enumeration enumId).any (·.containsVariant variantId) = true) .integrity
      | _ => .error .integrity
    | .list element _ =>
      match value with
      | .list values => values.forM fun value => validateValue schema element value
      | _ => .error .integrity
    | _ => .ok ()

def validateRecordExact (schema : SchemaIr) (declared : RecordSchema) (actual : CanonicalRecord) :
    Except ExecutionFault Unit := do
  require (declared.fields.length = actual.fields.length) .integrity
  (declared.fields.zip actual.fields).forM fun (field, actual) => do
    require (field.id = actual.1) .integrity
    validateValue schema field.valueType actual.2

/-- The stored record as it is, once its declared fields and its key are checked. -/
def materializeEntityRecord (schema : SchemaIr) (declared : RecordSchema) (keyFields : List FieldId)
    (keySchema : KeySchema) (target : EntityTarget) (stored : CanonicalRecord) :
    Except ExecutionFault CanonicalRecord := do
  let keyValues ← (keySchema.decodeEntity target.key).mapError fun _ => .integrity
  require (keyValues.length = keyFields.length) .integrity
  declared.fields.forM fun field => do
    let value ← okOr (stored.recordField field.id) .integrity
    validateValue schema field.valueType value
  (keyFields.zip keyValues).forM fun (field, expected) =>
    require (stored.recordField field = some expected) .integrity
  (CanonicalRecord.ofFields stored.fields).mapError mapValueError

/-- A key field gets its value from the target, an optional field null, any other none. -/
def initialFields (keyFields : List FieldId) (keyValues : List CanonicalValue) :
    List FieldSchema → List (FieldId × CanonicalValue)
  | [] => []
  | field :: rest =>
      match (keyFields.zip keyValues).find? (·.1 = field.id) with
      | some (_, value) => (field.id, value) :: initialFields keyFields keyValues rest
      | none =>
          if field.valueType.isOptional then
            (field.id, .null) :: initialFields keyFields keyValues rest
          else initialFields keyFields keyValues rest

def initializeCreateRecord (declared : RecordSchema) (keyFields : List FieldId)
    (keySchema : KeySchema) (target : EntityTarget) : Except ExecutionFault CanonicalRecord := do
  let keyValues ← (keySchema.decodeEntity target.key).mapError fun _ => .integrity
  require (keyValues.length = keyFields.length) .integrity
  (CanonicalRecord.ofFields (initialFields keyFields keyValues declared.fields)).mapError
    mapValueError

def BindingMode.isWritable : BindingMode → Bool
  | .mutate | .create | .initOrMutate | .observeOrInitialize => true
  | .read | .delete => false

/-- The declared field of the entity that a binding is bound to. -/
def boundField (schema : SchemaIr) (binding : BindingPlan) (fieldId : FieldId) :
    Option FieldSchema :=
  (schema.entity binding.entityType).bind fun entity => entity.record.field fieldId

def setWorkingField (exec : Execution) (records : Records) (bindingId : BindingId)
    (fieldId : FieldId) (value : CanonicalValue) : Except ExecutionFault Records := do
  let binding ← okOr (exec.plan.binding? bindingId) .integrity
  require (BindingMode.isWritable binding.mode = true) .integrity
  let field ← okOr (boundField exec.schema binding fieldId) .integrity
  validateValue exec.schema field.valueType value
  let record ← okOr records[bindingId]?.join .integrity
  let updated ← (record.setField fieldId value).mapError mapValueError
  .ok (records.set bindingId (some updated))

section

variable {exec : Execution} {bindingId : BindingId} {fieldId : FieldId} {value : CanonicalValue}

/-- An assignment replaces one record, and in it one field. -/
theorem setWorkingField_eq_ok {records result : Records}
    (set : setWorkingField exec records bindingId fieldId value = .ok result) :
    ∃ record updated, records[bindingId]? = some (some record) ∧
      record.setField fieldId value = .ok updated ∧
        result = records.set bindingId (some updated) := by
  simp only [setWorkingField, bind_eq_ok, require_eq_ok, okOr_eq_ok, mapError_eq_ok,
    Option.join_eq_some_iff, Except.ok.injEq] at set
  obtain ⟨_, _, _, _, _, _, _, _, record, held, updated, set, rfl⟩ := set
  exact ⟨record, updated, held, set, rfl⟩

/-- An assignment of a valid value to a declared field of a writable binding. -/
theorem setWorkingField_of_valid {records : Records} {binding : BindingPlan} {field : FieldSchema}
    {record updated : CanonicalRecord} (found : exec.plan.binding? bindingId = some binding)
    (writable : BindingMode.isWritable binding.mode = true)
    (declared : boundField exec.schema binding fieldId = some field)
    (valid : validateValue exec.schema field.valueType value = .ok ())
    (held : records[bindingId]? = some (some record))
    (set : record.setField fieldId value = .ok updated) :
    setWorkingField exec records bindingId fieldId value =
      .ok (records.set bindingId (some updated)) := by
  simp [setWorkingField, found, require_pos writable, declared, valid, held, set, Except.mapError]

end

structure DeclaredOutcome where
  outcomeId : OutcomeId
  value : CanonicalRecord
deriving DecidableEq

def DeclaredOutcome.new (outcomeId : OutcomeId) (value : CanonicalRecord) :
    Except StorageValueError DeclaredOutcome := do
  let _ ← (encodeCanonicalRecord value).mapError canonicalCodecStorageError
  .ok ⟨outcomeId, value⟩

/-- The fields evaluated so far and the bytes they take. -/
def constructFields (exec : Execution) (values : ExpressionValues) :
    List FieldExpression → Nat → Except ExecutionFault (List (FieldId × CanonicalValue))
  | [], _ => .ok []
  | mapping :: rest, encodedBytes => do
    let value ← exec.evaluate values mapping.expression
    let valueBytes ← (encodeCanonicalValue value).mapError mapCanonicalCodecError
    let next := encodedBytes + 4 + valueBytes.length
    require (next ≤ maxCanonicalDocumentBytes) .resourceLimit
    let others ← constructFields exec values rest next
    .ok ((mapping.fieldId, value) :: others)

def constructRecord (exec : Execution) (values : ExpressionValues)
    (construction : ObjectConstruction) : Except ExecutionFault CanonicalRecord := do
  let empty ← (CanonicalRecord.ofFields []).mapError mapValueError
  let emptyBytes ← (encodeCanonicalRecord empty).mapError mapCanonicalCodecError
  let fields ← constructFields exec values construction.fields emptyBytes.length
  (CanonicalRecord.ofFields fields).mapError mapValueError

def constructOutcome (exec : Execution) (values : ExpressionValues)
    (construction : OutcomeConstruction) : Except ExecutionFault DeclaredOutcome := do
  let value ← constructRecord exec values construction.payload
  (DeclaredOutcome.new construction.outcomeId value).mapError mapStorageValueError

theorem constructOutcome_outcomeId {exec : Execution} {values : ExpressionValues}
    {construction : OutcomeConstruction} {outcome : DeclaredOutcome}
    (constructed : constructOutcome exec values construction = .ok outcome) :
    outcome.outcomeId = construction.outcomeId := by
  simp only [constructOutcome, DeclaredOutcome.new, bind_eq_ok, mapError_eq_ok,
    Except.ok.injEq] at constructed
  obtain ⟨_, _, _, _, rfl⟩ := constructed
  rfl

/-- Seconds first, then nanoseconds. -/
instance : LE Timestamp where
  le left right := left.seconds.toInt < right.seconds.toInt ∨
    left.seconds = right.seconds ∧ left.nanoseconds ≤ right.nanoseconds

instance (left right : Timestamp) : Decidable (left ≤ right) := by
  unfold LE.le instLETimestamp
  infer_instance

/-- A workflow instruction stops with a fault, or returns a declared rejection. -/
abbrev WorkflowBody := Except (Exit ExecutionFault DeclaredOutcome)

/-- Bindings that workflow instructions may act on. -/
def BindingMode.hasWorkflow : BindingMode → Bool
  | .mutate | .initOrMutate | .observeOrInitialize => true
  | .read | .create | .delete => false

/-- The version the caller must name; an entity that does not exist yet has revision zero. -/
def observedRevision : BindingMode → EntityObservation → Except ExecutionFault Nat
  | .mutate, .present stored | .initOrMutate, .present stored
  | .observeOrInitialize, .present stored => .ok stored.entityVersion.get
  | .initOrMutate, .absent _ | .observeOrInitialize, .absent _ => .ok 0
  | _, _ => .error .integrity

def workflowBinding (exec : Execution) (bindingId : BindingId) (observation : EntityObservation) :
    Except ExecutionFault BindingPlan := do
  let binding ← okOr ((exec.plan.binding? bindingId).filter fun binding =>
    BindingMode.hasWorkflow binding.mode) .integrity
  require (observation.target.entityTypeId = binding.entityType) .integrity
  .ok binding

section Workflow

variable (exec : Execution) (observation : EntityObservation) (records roots : Records)
  (element : Option CanonicalValue)

def evaluateExpr (expression : ExprId) : WorkflowBody CanonicalValue :=
  attempt (exec.evaluate (exec.values records roots element) expression)

def reject {α : Type} (outcome : OutcomeConstruction) : WorkflowBody α :=
  leave (constructOutcome exec (exec.values records roots element) outcome)

/-- Reject unless the condition holds. -/
def requireOr (condition : Prop) [Decidable condition] (outcome : OutcomeConstruction) :
    WorkflowBody Unit :=
  if condition then .ok () else reject exec records roots element outcome

def evaluateU64 (expression : ExprId) : WorkflowBody UInt64 := do
  match ← evaluateExpr exec records roots element expression with
  | .u64 value => .ok value
  | _ => .error (.fault .integrity)

def requireRevision (revision : Nat) (expression : ExprId) (stale : OutcomeConstruction) :
    WorkflowBody Unit := do
  let expected ← evaluateU64 exec records roots element expression
  requireOr exec records roots element (revision = expected.toNat) stale

def setWorkingFields (bindingId : BindingId) :
    Records → List (FieldId × CanonicalValue) → WorkflowBody Records
  | records, [] => .ok records
  | records, (fieldId, value) :: rest => do
    let records ← attempt (setWorkingField exec records bindingId fieldId value)
    setWorkingFields bindingId records rest

/-- Checks the revision and the state, then assigns the destination state. -/
def workflowTransition (transition : WorkflowTransition) : WorkflowBody Records := do
  let binding ← attempt (workflowBinding exec transition.binding observation)
  let revision ← attempt (observedRevision binding.mode observation)
  let stateEnum ← attempt (okOr ((boundField exec.schema binding transition.stateField).bind
    (·.valueType.enumTypeId)) .integrity)
  require ((exec.schema.enumeration stateEnum).any
    (·.containsVariant transition.destination) = true)
    (.fault .integrity)
  requireRevision exec records roots element revision transition.expectedRevision transition.stale
  let state ← attempt (okOr (records[transition.binding]?.join.bind
    (·.recordField transition.stateField)) .integrity)
  match state with
  | .enum typeId variantId => do
    require (typeId = stateEnum) (.fault .integrity)
    requireOr exec records roots element (variantId ∈ transition.sourceStates) transition.illegal
    setWorkingFields exec transition.binding records
      [(transition.stateField, .enum typeId transition.destination)]
  | _ => .error (.fault .integrity)

/-- What the working record holds in the lease's fields. -/
structure CurrentLease where
  owner : CanonicalValue
  expiry : CanonicalValue
  fence : UInt64
  attempt : Option UInt64

def u64Field (record : CanonicalRecord) (fieldId : FieldId) : Except ExecutionFault UInt64 :=
  match record.recordField fieldId with
  | some (.u64 value) => .ok value
  | _ => .error .integrity

def attemptCount (record : CanonicalRecord) : Option FieldId → Except ExecutionFault (Option UInt64)
  | some fieldId => (u64Field record fieldId).map some
  | none => .ok none

def currentLease (record : CanonicalRecord) (fields : WorkflowLeaseFields) :
    Except ExecutionFault CurrentLease := do
  let owner ← okOr (record.recordField fields.ownerField) .integrity
  let expiry ← okOr (record.recordField fields.expiryField) .integrity
  let fence ← u64Field record fields.fencingTokenField
  let attempt ← attemptCount record fields.attemptField
  .ok ⟨owner, expiry, fence, attempt⟩

/-- `checked_add` of one. -/
def checkedIncrement (value : UInt64) : Option UInt64 :=
  if value.toNat + 1 < 2 ^ 64 then some (value + 1) else none

/-- The end of a lease that starts now, if the instant can be represented. -/
def expiration (txTime : Timestamp) (duration : UInt64) : Option Timestamp :=
  if duration.toNat < 2 ^ 63 ∧ txTime.seconds.toInt + duration.toNat < 2 ^ 63 then
    (Timestamp.new (Int64.ofInt (txTime.seconds.toInt + duration.toNat))
      txTime.nanoseconds).toOption
  else none

/-- A value that is missing is answered with a rejection. -/
def presentOr {α : Type} (value : Option α) (outcome : OutcomeConstruction) : WorkflowBody α :=
  match value with
  | some value => .ok value
  | none => reject exec records roots element outcome

/-- The attempt counter after one more attempt, if the lease has one. -/
def nextAttempt (current : Option UInt64) (exhausted : OutcomeConstruction) :
    WorkflowBody (Option UInt64) :=
  match current with
  | some value => do
    let next ← presentOr exec records roots element (checkedIncrement value) exhausted
    .ok (some next)
  | none => .ok none

def attemptWrites : Option FieldId → Option UInt64 → List (FieldId × CanonicalValue)
  | some fieldId, some value => [(fieldId, .u64 value)]
  | _, _ => []

/-- Unowned, or held until an instant that has come. -/
def requireAvailable (owner expiry : CanonicalValue) (unavailable : OutcomeConstruction) :
    WorkflowBody Unit :=
  match owner, expiry with
  | .null, .null => .ok ()
  | .uuid _, .timestamp expiry =>
      requireOr exec records roots element (expiry ≤ exec.txTime) unavailable
  | _, _ => .error (.fault .integrity)

/-- Held, until an instant that has come. -/
def requireExpired (owner expiry : CanonicalValue) (active : OutcomeConstruction) :
    WorkflowBody Unit :=
  match owner, expiry with
  | .uuid _, .timestamp expiry =>
      requireOr exec records roots element (expiry ≤ exec.txTime) active
  | .null, .null => reject exec records roots element active
  | _, _ => .error (.fault .integrity)

/-- The caller is the owner and presents the current token. The token expression is evaluated
only for the owner. -/
def requireHolder (current : CurrentLease) (owner fencingToken : ExprId)
    (invalid : OutcomeConstruction) : WorkflowBody Unit := do
  let presentedOwner ← evaluateExpr exec records roots element owner
  requireOr exec records roots element (presentedOwner = current.owner) invalid
  let presented ← evaluateExpr exec records roots element fencingToken
  requireOr exec records roots element (presented = .u64 current.fence) invalid

/-- The instant the current lease ends at. -/
def expiryInstant (expiry : CanonicalValue) (invalid : OutcomeConstruction) :
    WorkflowBody Timestamp :=
  match expiry with
  | .timestamp expiry => .ok expiry
  | _ => reject exec records roots element invalid

def evaluateUuid (expression : ExprId) : WorkflowBody (ByteArrayOf 16) := do
  match ← evaluateExpr exec records roots element expression with
  | .uuid value => .ok value
  | _ => .error (.fault .integrity)

def leaseOperation (bindingId : BindingId) (fields : WorkflowLeaseFields) (revision : Nat)
    (current : CurrentLease) : WorkflowLeaseOperation → WorkflowBody Records
  | .claim owner durationSeconds expectedRevision stale unavailable invalid exhausted => do
    requireRevision exec records roots element revision expectedRevision stale
    let owner ← evaluateUuid exec records roots element owner
    let duration ← evaluateU64 exec records roots element durationSeconds
    requireOr exec records roots element (fields.minimumDurationSeconds ≤ duration ∧
      duration ≤ fields.maximumDurationSeconds) invalid
    requireAvailable exec records roots element current.owner current.expiry unavailable
    let nextFence ← presentOr exec records roots element
      ((checkedIncrement current.fence).filter (· ≠ 0)) exhausted
    let attempt ← nextAttempt exec records roots element current.attempt exhausted
    let expiry ← presentOr exec records roots element (expiration exec.txTime duration) exhausted
    setWorkingFields exec bindingId records ([(fields.ownerField, .uuid owner),
      (fields.expiryField, .timestamp expiry), (fields.fencingTokenField, .u64 nextFence)] ++
      attemptWrites fields.attemptField attempt)
  | .renew owner fencingToken durationSeconds expectedRevision stale invalid expired exhausted => do
    requireRevision exec records roots element revision expectedRevision stale
    let owner ← evaluateExpr exec records roots element owner
    let fence ← evaluateExpr exec records roots element fencingToken
    let duration ← evaluateU64 exec records roots element durationSeconds
    requireOr exec records roots element (fields.minimumDurationSeconds ≤ duration ∧
      duration ≤ fields.maximumDurationSeconds) invalid
    requireOr exec records roots element (owner = current.owner ∧
      fence = .u64 current.fence) invalid
    let currentExpiry ← expiryInstant exec records roots element current.expiry invalid
    requireOr exec records roots element (¬ currentExpiry ≤ exec.txTime) expired
    let expiry ← presentOr exec records roots element (expiration exec.txTime duration) exhausted
    setWorkingFields exec bindingId records [(fields.expiryField, .timestamp expiry)]
  | .release owner fencingToken expectedRevision stale invalid => do
    requireRevision exec records roots element revision expectedRevision stale
    requireHolder exec records roots element current owner fencingToken invalid
    let _ ← expiryInstant exec records roots element current.expiry invalid
    setWorkingFields exec bindingId records [(fields.ownerField, .null),
      (fields.expiryField, .null)]
  | .expire expectedRevision stale active => do
    requireRevision exec records roots element revision expectedRevision stale
    requireExpired exec records roots element current.owner current.expiry active
    setWorkingFields exec bindingId records [(fields.ownerField, .null),
      (fields.expiryField, .null)]
  | .fence owner fencingToken expectedRevision stale invalid expired => do
    requireRevision exec records roots element revision expectedRevision stale
    requireHolder exec records roots element current owner fencingToken invalid
    let expiry ← expiryInstant exec records roots element current.expiry invalid
    requireOr exec records roots element (¬ expiry ≤ exec.txTime) expired
    .ok records

def workflowLease (lease : WorkflowLease) : WorkflowBody Records := do
  let binding ← attempt (workflowBinding exec lease.binding observation)
  let revision ← attempt (observedRevision binding.mode observation)
  let record ← attempt (okOr records[lease.binding]?.join .integrity)
  let current ← attempt (currentLease record lease.fields)
  leaseOperation exec records roots element lease.binding lease.fields revision current
    lease.operation

def workflowInstruction : Instruction → WorkflowBody Records
  | .workflowTransition transition =>
      workflowTransition exec observation records roots element transition
  | .workflowLease lease => workflowLease exec observation records roots element lease
  | _ => .error (.fault .integrity)

/-- The declared rejection, or none and the records as the instruction left them. -/
def executeWorkflowInstruction (instruction : Instruction) :
    Except ExecutionFault (Option DeclaredOutcome × Records) :=
  match workflowInstruction exec observation records roots element instruction with
  | .ok written => .ok (none, written)
  | .error (.returned outcome) => .ok (some outcome, records)
  | .error (.fault reason) => .error reason

end Workflow

end CommandRuntime
