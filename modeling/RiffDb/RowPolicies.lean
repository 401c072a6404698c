import RiffDb.BytePrefixes
import RiffDb.CommandRuntime
import RiffDb.KeySchemaCodec
import RiffDb.MemoTables

/-!
# Row policies

A row policy is a rule over the fields of a row, the facts of the principal and relationships: has
an index an entry under these arguments? A read first collects the answers that the rule needs,
each from a table of earlier answers or from the index, and then evaluates the rule. A row that
lacks an argument of a relationship cannot be evaluated, and the read fails.
-/

namespace RowPolicies

open ByteWire CheckedCode CanonicalScalars CanonicalValues CanonicalRecords ValueTypes KeySchemas
  CommandRuntime BytePrefixes MemoTables List

def keyBefore (left right : IndexEntryKey) : Prop := compare left.asBytes right.asBytes = .lt

def keyNotAfter (left right : IndexEntryKey) : Prop := compare left.asBytes right.asBytes ≠ .gt

/-- Index keys, and the bounds of their ranges, in the order of their bytes. -/
instance : LinearOrder IndexEntryKey where
  le := keyNotAfter
  lt := keyBefore
  le_refl key := by simp [keyNotAfter]
  le_trans first second third low high :=
    Ordering.isLE_iff_ne_gt.mp (Std.TransCmp.isLE_trans (Ordering.isLE_iff_ne_gt.mpr low)
      (Ordering.isLE_iff_ne_gt.mpr high))
  le_antisymm left right less more :=
    IndexEntryKey.ext (Std.LawfulEqCmp.eq_of_compare (Std.OrientedCmp.isLE_antisymm
      (Ordering.isLE_iff_ne_gt.mpr less) (Ordering.isLE_iff_ne_gt.mpr more)))
  le_total left right := by
    rw [keyNotAfter, keyNotAfter, ne_eq, ne_eq, Std.OrientedCmp.gt_iff_lt]
    cases compare right.asBytes left.asBytes <;> simp
  lt_iff_le_not_ge left right := by
    rw [keyBefore, keyNotAfter, keyNotAfter, ne_eq, ne_eq, Std.OrientedCmp.gt_iff_lt, not_not,
      Std.OrientedCmp.gt_iff_lt]
    exact ⟨fun less => ⟨fun more => absurd less (Std.OrientedCmp.not_lt_of_lt more),
      less⟩, And.right⟩
  toDecidableLE left right := inferInstanceAs (Decidable (compare left.asBytes right.asBytes ≠ .gt))
  toDecidableLT left right := inferInstanceAs (Decidable (compare left.asBytes right.asBytes = .lt))

structure IndexEntry where
  key : IndexEntryKey
  partitionKey : PartitionKey
deriving DecidableEq

inductive RowPolicyOperationV1 where
  | create
  | read
  | update
  | delete
deriving DecidableEq

inductive RowPolicyValueSourceV1 where
  | rowField (field : FieldId)
  | principalId
  | principalKind
  | principalFact (name : String)
  | constant (value : CanonicalValue)

structure RowPolicyOperandV1 where
  valueType : ValueType
  source : RowPolicyValueSourceV1

inductive RowPolicyExpressionNodeV1 where
  | operand (operand : RowPolicyOperandV1)
  | equal (left right : Nat)
  | notEqual (left right : Nat)
  | not (value : Nat)
  | and (left right : Nat)
  | or (left right : Nat)
  | in (needle haystack : Nat)
  | isNull (value : Nat) (negated : Bool)
  | indexedExists (targetEntity : EntityTypeId) (indexId : IndexId)
      (arguments : List RowPolicyOperandV1)

structure RowPolicyRuleV1 where
  operation : RowPolicyOperationV1
  nodes : List RowPolicyExpressionNodeV1
  root : Nat

inductive RowPolicyDenyReasonV1 where
  | missingRule
  | invalidPlanOrRow
  | missingOrInvalidPrincipalFact
  | missingOrInvalidRelationshipEvidence
  | predicateDenied

/-- The identifier is present if it is the text of a UUID; the kind is one of the three names. -/
structure PrincipalFactBindingV1 where
  principalId : Option (ByteArrayOf 16)
  actorKind : CanonicalString
  facts : String → Option CanonicalValue

structure IndexedRelationshipProbeV1 where
  targetEntity : EntityTypeId
  indexId : IndexId
  arguments : List CanonicalValue
deriving DecidableEq

abbrev Evaluated := Except RowPolicyDenyReasonV1

inductive NodeValue where
  | canonical (value : CanonicalValue)
  | boolean (value : Bool)

section Evaluation

variable (row : CanonicalRecord) (principal : PrincipalFactBindingV1)

def evaluateOperand (operand : RowPolicyOperandV1) : Evaluated CanonicalValue := do
  let value ← match operand.source with
    | .rowField field => okOr (row.recordField field) .invalidPlanOrRow
    | .principalId => (okOr principal.principalId .missingOrInvalidPrincipalFact).map .uuid
    | .principalKind => .ok (.string principal.actorKind)
    | .principalFact name => okOr (principal.facts name) .missingOrInvalidPrincipalFact
    | .constant value => .ok value
  require (operand.valueType.accepts value = true) .missingOrInvalidPrincipalFact
  .ok value

def probeOf (targetEntity : EntityTypeId) (indexId : IndexId)
    (arguments : List RowPolicyOperandV1) : Evaluated IndexedRelationshipProbeV1 := do
  let arguments ← arguments.mapM (evaluateOperand row principal)
  .ok ⟨targetEntity, indexId, arguments⟩

/-- What a node asks for, if it is a relationship. -/
def relationshipProbe : RowPolicyExpressionNodeV1 → Option (Evaluated IndexedRelationshipProbeV1)
  | .indexedExists target index arguments => some (probeOf row principal target index arguments)
  | _ => none

def requiredIndexedRelationshipProbes (rules : List RowPolicyRuleV1) :
    Evaluated (List IndexedRelationshipProbeV1) := do
  let rule ← okOr (rules.find? (·.operation = .read)) .missingRule
  (rule.nodes.filterMap (relationshipProbe row principal)).mapM id

def canonicalNode (values : List NodeValue) (index : Nat) : Evaluated CanonicalValue :=
  match values[index]? with
  | some (.canonical value) => .ok value
  | _ => .error .invalidPlanOrRow

def booleanNode (values : List NodeValue) (index : Nat) : Evaluated Bool :=
  match values[index]? with
  | some (.boolean value) | some (.canonical (.bool value)) => .ok value
  | _ => .error .invalidPlanOrRow

def evaluateNode (relationships : List (IndexedRelationshipProbeV1 × Bool))
    (values : List NodeValue) : RowPolicyExpressionNodeV1 → Evaluated NodeValue
  | .operand operand => (evaluateOperand row principal operand).map .canonical
  | .equal left right => do
    let first ← canonicalNode values left
    let second ← canonicalNode values right
    .ok (.boolean (first = second))
  | .notEqual left right => do
    let first ← canonicalNode values left
    let second ← canonicalNode values right
    .ok (.boolean (first ≠ second))
  | .not value => (booleanNode values value).map fun value => .boolean !value
  | .and left right => do
    if ← booleanNode values left then (booleanNode values right).map .boolean
      else .ok (.boolean false)
  | .or left right => do
    if ← booleanNode values left then .ok (.boolean true)
      else (booleanNode values right).map .boolean
  | .in needle haystack => do
    let needle ← canonicalNode values needle
    match ← canonicalNode values haystack with
    | .list candidates => .ok (.boolean (needle ∈ candidates))
    | _ => .error .invalidPlanOrRow
  | .isNull value negated => (canonicalNode values value).map fun value =>
      .boolean ((value = .null) ^^ negated)
  | .indexedExists target index arguments => do
    let probe ← probeOf row principal target index arguments
    let evidence ← okOr (relationships.find? (·.1 = probe)) .missingOrInvalidRelationshipEvidence
    .ok (.boolean evidence.2)

/-- A row is allowed with the hash of its canonical bytes, so it needs such bytes. -/
def evaluateRowPolicy (rules : List RowPolicyRuleV1)
    (relationships : List (IndexedRelationshipProbeV1 × Bool)) : Evaluated Bytes := do
  let rule ← okOr (rules.find? (·.operation = .read)) .missingRule
  let values ← rule.nodes.foldlM (fun values node => do
    let value ← evaluateNode row principal relationships values node
    .ok (values ++ [value])) []
  let permitted ← booleanNode values rule.root
  require (permitted = true) .predicateDenied
  (encodeCanonicalRecord row).mapError fun _ => .invalidPlanOrRow

end Evaluation

structure AuthorizedRelationshipPlanV1 where
  targetEntity : EntityTypeId
  indexId : IndexId
  indexSchema : KeySchema
  partitionSchema : KeySchema
  partitionWidth : Nat

structure AuthorizedEntityPolicyV1 where
  rules : List RowPolicyRuleV1
  relationships : EntityTypeId → IndexId → Option AuthorizedRelationshipPlanV1

structure AuthorizedQueryRowPolicyContextV1 where
  principal : PrincipalFactBindingV1
  policies : EntityTypeId → Option AuthorizedEntityPolicyV1

abbrev Policy := Option AuthorizedQueryRowPolicyContextV1

inductive QueryRowPolicyContextErrorV1 where
  | staleOrInconsistentAuthority
  | invalidRelationshipPlan

structure AuthorizedIndexedRelationshipLookupV1 where
  targetEntity : EntityTypeId
  indexId : IndexId
  partition : PartitionKey
  indexPrefix : Bytes
deriving DecidableEq

def lookupOf (selected : AuthorizedEntityPolicyV1) (probe : IndexedRelationshipProbeV1) :
    Except QueryRowPolicyContextErrorV1 AuthorizedIndexedRelationshipLookupV1 := do
  let relation ← okOr (selected.relationships probe.targetEntity probe.indexId)
    .invalidRelationshipPlan
  require (relation.partitionWidth ≤ probe.arguments.length) .invalidRelationshipPlan
  let partition ← (relation.partitionSchema.encodePartition
    (probe.arguments.take relation.partitionWidth)).mapError fun _ => .invalidRelationshipPlan
  let indexPrefix ← (relation.indexSchema.encodeIndexPrefix probe.arguments).mapError fun _ =>
    .invalidRelationshipPlan
  .ok ⟨relation.targetEntity, relation.indexId, partition, indexPrefix.asBytes⟩

namespace AuthorizedQueryRowPolicyContextV1

variable (context : AuthorizedQueryRowPolicyContextV1) (entity : EntityTypeId)
  (row : CanonicalRecord)

def relationshipLookups :
    Except QueryRowPolicyContextErrorV1 (List AuthorizedIndexedRelationshipLookupV1) :=
  match context.policies entity with
  | none => .ok []
  | some selected => do
    let probes ← (requiredIndexedRelationshipProbes row context.principal selected.rules).mapError
      fun _ =>
      .staleOrInconsistentAuthority
    probes.mapM (lookupOf selected)

def allows (relationshipExists : List Bool) : Bool :=
  match context.policies entity with
  | none => true
  | some selected =>
    match requiredIndexedRelationshipProbes row context.principal selected.rules with
    | .error _ => false
    | .ok probes => probes.length = relationshipExists.length &&
      (evaluateRowPolicy row context.principal selected.rules (probes.zip relationshipExists)).isOk

end AuthorizedQueryRowPolicyContextV1

structure Snapshot where
  entries : List IndexEntry
  increasing : entries.Pairwise fun left right => left.key < right.key
  entities : EntityTypeId → EntityKey → Option CanonicalRecord

/-- The policy check of a read. The relationships that it asks for are looked up in one index, each
only once while the table is kept. -/
def allowsPolicyRecord {ε : Type} (invariant : ε)
    (indexedRelationshipExists : AuthorizedIndexedRelationshipLookupV1 → Except ε Bool)
    (policy : Policy) (entity : EntityTypeId) (row : CanonicalRecord) :
    Memoised indexedRelationshipExists Bool :=
  match policy with
  | none => pure true
  | some context =>
    if (context.policies entity).isNone then pure true
    else do
      let lookups ← (context.relationshipLookups entity row).mapError fun _ => invariant
      let evidence ← lookups.mapM consult
      pure (context.allows entity row evidence)

section Evaluable

variable (row : CanonicalRecord) (principal : PrincipalFactBindingV1)

/-- What an operand names, if it is there and has the type of the operand. -/
def RowPolicyOperandV1.value (operand : RowPolicyOperandV1) : Option CanonicalValue :=
  (match operand.source with
    | .rowField field => row.recordField field
    | .principalId => principal.principalId.map .uuid
    | .principalKind => some (.string principal.actorKind)
    | .principalFact name => principal.facts name
    | .constant value => some value).filter (operand.valueType.accepts ·)

/-- The arguments give a partition and a beginning of index keys. -/
def AuthorizedRelationshipPlanV1.Encodes (relation : AuthorizedRelationshipPlanV1)
    (arguments : List CanonicalValue) : Prop :=
  relation.partitionWidth ≤ arguments.length ∧
    (∃ key, relation.partitionSchema.encodePartition
      (arguments.take relation.partitionWidth) = .ok key) ∧
    ∃ start, relation.indexSchema.encodeIndexPrefix arguments = .ok start

/-- There is a read rule, and each relationship that it asks for has all its arguments and a plan
that encodes them. -/
def AuthorizedEntityPolicyV1.Evaluable (selected : AuthorizedEntityPolicyV1) : Prop :=
  ∃ rule, selected.rules.find? (·.operation = .read) = some rule ∧
    ∀ target index arguments, .indexedExists target index arguments ∈ rule.nodes →
      ∃ values, arguments.mapM (·.value row principal) = some values ∧
        ∃ relation, selected.relationships target index = some relation ∧ relation.Encodes values

def Policy.Evaluable (policy : Policy) (entity : EntityTypeId) (row : CanonicalRecord) : Prop :=
  ∀ context ∈ policy, ∀ selected ∈ context.policies entity, selected.Evaluable row context.principal

variable {row principal}

end Evaluable

section Decision

/-- The entries of all partitions under a prefix. -/
def Snapshot.under (snapshot : Snapshot) (lead : Bytes) : List IndexEntry :=
  snapshot.entries.filter fun entry => lead.isPrefixOf entry.key.asBytes

def Snapshot.found (snapshot : Snapshot) (lookup : AuthorizedIndexedRelationshipLookupV1) : Bool :=
  (snapshot.under lookup.indexPrefix).any (·.partitionKey = lookup.partition)

variable (snapshot : Snapshot) (policy : Policy) (entity : EntityTypeId) (row : CanonicalRecord)

def Policy.lookups :
    Except QueryRowPolicyContextErrorV1 (List AuthorizedIndexedRelationshipLookupV1) :=
  match policy with
  | none => .ok []
  | some context => context.relationshipLookups entity row

/-- What the policy says about a row over the entries of a snapshot. -/
def Snapshot.decision : Except QueryRowPolicyContextErrorV1 Bool := do
  let lookups ← policy.lookups entity row
  .ok (policy.all fun context => context.allows entity row (lookups.map snapshot.found))

variable {snapshot policy entity row}

end Decision

end RowPolicies
