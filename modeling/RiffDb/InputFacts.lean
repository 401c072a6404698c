import RiffDb.CommandRuntime

/-!
# What a command's input determines

Before a snapshot is taken, the partition and the keys of all entities a command touches are derived
from its input alone. A binding of the collection template has one slot for each element, any other
binding one slot. The conflict keys derived alongside do not reach the runtime.
-/

namespace InputFacts

open CheckedCode CanonicalValues ValueTypes KeySchemas
open CommandPlans CommandRuntime CanonicalCodec

/-- One entity to read: the position in the plan, the element it belongs to, and its key. -/
structure Slot where
  planIndex : Nat
  ordinal : Option Nat
  key : EntityKey
deriving DecidableEq

structure InputDerivedCommandFacts where
  partitionKey : PartitionKey
  bindings : List Slot
  rootValidations : List Slot

variable (exec : Execution)

def validateNormalizedInput : Except EvaluationError Unit := do
  require (exec.plan.input.fields.length = exec.input.fields.length) .integrity
  (exec.plan.input.fields.zip exec.input.fields).forM fun (field, actual) =>
    require (field.id = actual.1 ∧ field.valueType.accepts actual.2 = true) .integrity

/-- Elements are of the declared type, and no two have the same encoding. -/
def checkElements (elementType : ValueType) :
    List CanonicalValue → List ByteWire.Bytes → Except EvaluationError Unit
  | [], _ => .ok ()
  | element :: rest, seen => do
    require (elementType.accepts element = true) .integrity
    let encoded ← (encodeCanonicalValue element).mapError fun _ => .integrity
    require (encoded ∉ seen) .integrity
    checkElements elementType rest (encoded :: seen)

def collectionElements : Except EvaluationError (Option (List CanonicalValue)) :=
  match exec.plan.collectionExpansion with
  | none => .ok none
  | some expansion =>
      match exec.input.recordField expansion.inputField with
      | some (.list elements) => do
        require (expansion.minimumElements ≤ elements.length ∧
          elements.length ≤ expansion.maximumElements) .integrity
        checkElements expansion.elementType elements []
        .ok (some elements)
      | _ => .error .integrity

def evaluatePartition (element : Option CanonicalValue) : Except EvaluationError PartitionKey := do
  let component ← exec.evaluator (.input exec.input element) exec.plan.locality.partitionExpression
  (exec.plan.locality.partitionSchema.encodePartition [component]).mapError fun _ => .integrity

/-- Every element must name the same partition. -/
def derivePartition : Option (List CanonicalValue) → Except EvaluationError PartitionKey
  | none => evaluatePartition exec none
  | some [] => .error .integrity
  | some (first :: rest) => do
    let partition ← evaluatePartition exec (some first)
    rest.forM fun element => do
      let other ← evaluatePartition exec (some element)
      require (other = partition) .integrity
    .ok partition

def deriveEntityKey (element : Option CanonicalValue) (keySchema : KeySchema)
    (keyExpressions : List ExprId) : Except EvaluationError EntityKey := do
  let components ← keyExpressions.mapM (exec.evaluator (.input exec.input element))
  (keySchema.encodeEntity components).mapError fun _ => .integrity

/-- The elements a binding is repeated for: itself once, or each element with its position. -/
def occurrences (elements : Option (List CanonicalValue)) (repeated : Bool) :
    Except EvaluationError (List (Option Nat × Option CanonicalValue)) :=
  if repeated then do
    let elements ← okOr elements .integrity
    .ok (elements.zipIdx.map fun (element, ordinal) => (some ordinal, some element))
  else .ok [(none, none)]

def deriveSlots (elements : Option (List CanonicalValue)) (planIndex : Nat) (repeated : Bool)
    (keySchema : KeySchema) (keyExpressions : List ExprId) :
    Except EvaluationError (List Slot) := do
  let occurrences ← occurrences elements repeated
  occurrences.mapM fun (ordinal, element) => do
    let key ← deriveEntityKey exec element keySchema keyExpressions
    .ok ⟨planIndex, ordinal, key⟩

/-- Bindings of the collection template are repeated for every element. -/
def CommandPlan.isRepeated (plan : CommandPlan) (planIndex : Nat) : Bool :=
  plan.collectionExpansion.any fun expansion =>
    expansion.firstBinding ≤ planIndex ∧ planIndex < expansion.firstBinding + expansion.bindingCount

/-- An entity that an index selects has no key before the snapshot. -/
def bindingSlots (exec : Execution) (elements : Option (List CanonicalValue)) :
    List (BindingPlan × Nat) → Except EvaluationError (List Slot)
  | [] => .ok []
  | (binding, planIndex) :: rest => do
    let slots ← if binding.indexedSelection then .ok [] else
      deriveSlots exec elements planIndex (CommandPlan.isRepeated exec.plan planIndex)
        binding.keySchema binding.keyExpressions
    let others ← bindingSlots exec elements rest
    .ok (slots ++ others)

def rootSlots (exec : Execution) (elements : Option (List CanonicalValue)) :
    List (RootValidationReadPlan × Nat) → Except EvaluationError (List Slot)
  | [] => .ok []
  | (read, planIndex) :: rest => do
    let slots ← if read.usesBinding then .ok [] else
      deriveSlots exec elements planIndex read.usesElement read.keySchema read.keyExpressions
    let others ← rootSlots exec elements rest
    .ok (slots ++ others)

def deriveInputCommandFacts : Except EvaluationError InputDerivedCommandFacts := do
  validateNormalizedInput exec
  let elements ← collectionElements exec
  let partitionKey ← derivePartition exec elements
  let bindings ← bindingSlots exec elements exec.plan.bindings.zipIdx
  let rootValidations ← rootSlots exec elements exec.plan.rootValidationReads.zipIdx
  .ok ⟨partitionKey, bindings, rootValidations⟩

end InputFacts
