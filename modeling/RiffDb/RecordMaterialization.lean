import RiffDb.EvaluatedCommands
import RiffDb.FrameStream

/-!
# Stored entities seen through a later schema

A record written before an optional field was declared lacks that field. For a command the missing
fields are filled in with nulls, and a mask keeps their positions. With the mask the stored record
is rebuilt from the filled one, to compare a record read again with the one that the command was
evaluated on.
-/

namespace RecordMaterialization

open ByteWire CheckedCode CanonicalScalars CanonicalValues CanonicalRecords CanonicalRecord List
open CommandPlans CommandRuntime EvaluatedCommands

structure DurableKeySchemaBindingV1 where
  lineage : Bytes
  contractVersion : ContractVersion
  bundleHash : Bytes
deriving DecidableEq

def DurableKeySchemaBindingV1.semanticBytes (binding : DurableKeySchemaBindingV1) : Nat :=
  binding.lineage.length + (4 + 8 + 32)

/-- A stored entity with all that its comparison reads. Its record has been through the checked
constructor and through the encoder, and its writer is the contract of its binding. -/
@[ext] structure StoredEntity where
  target : EntityTarget
  entityVersion : EntityVersion
  writtenByContract : ContractVersion
  schemaBinding : DurableKeySchemaBindingV1
  fields : CanonicalRecord
  formed : CanonicalRecord.new fields.fields = .ok fields.fields
  encodes : (encodeCanonicalRecord fields).isOk = true
  sameWriter : writtenByContract = schemaBinding.contractVersion

instance : DecidableEq StoredEntity := fun left right =>
  decidable_of_iff (left.target = right.target ∧ left.entityVersion = right.entityVersion ∧
      left.writtenByContract = right.writtenByContract ∧
      left.schemaBinding = right.schemaBinding ∧ left.fields = right.fields)
    StoredEntity.ext_iff.symm

def encodedLength (fields : CanonicalRecord) : Nat :=
  match encodeCanonicalRecord fields with
  | .ok bytes => bytes.length
  | .error _ => 0

def StoredEntity.semanticBytes (record : StoredEntity) : Nat :=
  EntityTarget.semanticBytes record.target + (8 + 8) + record.schemaBinding.semanticBytes +
    (encodedLength record.fields + 4)

inductive MaterializationError where
  | integrity
deriving DecidableEq

/-- Fields that came out of the checked constructor pass it unchanged. -/
theorem new_of_new {fields result : List (FieldId × CanonicalValue)}
    (built : CanonicalRecord.new fields = .ok result) :
      CanonicalRecord.new result = .ok result := by
  have increasing := increasing_of_new built
  have kept : result.mergeSort (fun left right => decide (left.1.get ≤ right.1.get)) = result := by
    apply mergeSort_of_pairwise
    exact increasing.imp fun less => decide_eq_true (UInt32.le_of_lt less)
  obtain ⟨sorted, distinct⟩ := new_eq_ok built
  have length : result.length = fields.length := by
    rw [sorted, length_mergeSort]
  simp only [CanonicalRecord.new, ← sorted, distinct] at built
  simp only [CanonicalRecord.new, kept, distinct, length]
  exact built

variable {fields : List (FieldId × CanonicalValue)} {record : CanonicalRecord}

theorem new_of_ofFields (built : ofFields fields = .ok record) :
    CanonicalRecord.new record.fields = .ok record.fields :=
  new_of_new (ofFields_eq_ok built)

/-- The record of an entity replaced by checked fields: `CanonicalRecord::new`, then
`StoredEntityRecordV1::new`. -/
def StoredEntity.withFields (record : StoredEntity) (fields : List (FieldId × CanonicalValue)) :
    Except MaterializationError StoredEntity :=
  match built : CanonicalRecord.ofFields fields with
  | .error _ => .error .integrity
  | .ok formed =>
    if encodes : (encodeCanonicalRecord formed).isOk = true then
      .ok { record with fields := formed, formed := new_of_ofFields built, encodes := encodes }
    else .error .integrity

open StoredEntity

/-- A stored record replaced by its own fields is the same record. -/
theorem StoredEntity.withFields_self (record : StoredEntity) :
    record.withFields record.fields.fields = .ok record := by
  have own : ofFields record.fields.fields = .ok record.fields := by
    unfold ofFields
    split
    · next result built =>
      rw [record.formed] at built
      cases built
      rfl
    · next built =>
      rw [record.formed] at built
      cases built
  unfold withFields
  split
  · next failed =>
    rw [own] at failed
    cases failed
  · next formed built =>
    have same : formed = record.fields := by
      rw [own] at built
      cases built
      rfl
    subst same
    rw [dif_pos record.encodes]

theorem StoredEntity.withFields_eq_ok {record replaced : StoredEntity}
    (built : record.withFields fields = .ok replaced) :
    CanonicalRecord.new fields = .ok replaced.fields.fields ∧ replaced.target = record.target ∧
      replaced.entityVersion = record.entityVersion ∧
      replaced.writtenByContract = record.writtenByContract ∧
      replaced.schemaBinding = record.schemaBinding := by
  unfold withFields at built
  split at built
  · cases built
  · next formed =>
    split at built
    · cases built
      exact ⟨ofFields_eq_ok formed, rfl, rfl, rfl, rfl⟩
    · cases built

/-- Only the fields of the entity that is replaced are read from the arguments. -/
theorem StoredEntity.withFields_of_same {record other : StoredEntity}
    (target : record.target = other.target) (version : record.entityVersion = other.entityVersion)
    (writer : record.writtenByContract = other.writtenByContract)
    (binding : record.schemaBinding = other.schemaBinding)
    (fields : List (FieldId × CanonicalValue)) :
    record.withFields fields = other.withFields fields := by
  obtain ⟨_, _, _, _, _, _, _, _⟩ := record
  obtain ⟨_, _, _, _, _, _, _, _⟩ := other
  cases target
  cases version
  cases writer
  cases binding
  rfl

/-- One bit for each field of the schema. -/
structure InsertedNullMask where
  canonicalBits : List Bool
deriving DecidableEq

namespace InsertedNullMask

def contains (mask : InsertedNullMask) (position : Nat) :
    Bool := mask.canonicalBits.getD position false

def hasCanonicalShape (mask : InsertedNullMask) (fieldCount : Nat) : Bool :=
  mask.canonicalBits.length = fieldCount ∧ true ∈ mask.canonicalBits

end InsertedNullMask

def maskContains (mask : Option InsertedNullMask) (position : Nat) : Bool :=
  mask.any (·.contains position)

/-- The mask of a record that lacks fields, and none for a record that has them all. -/
def missingFields (schema : RecordSchema) (record : CanonicalRecord) : Option InsertedNullMask :=
  let missing := schema.fields.map fun field => (record.recordField field.id).isNone
  if true ∈ missing then some ⟨missing⟩ else none

/-- The nulls to insert. A field is present or inserted, never both, and only an optional field is
inserted. -/
def insertedNulls (record : CanonicalRecord) (mask : Option InsertedNullMask) :
    Nat → List FieldSchema → Except MaterializationError (List (FieldId × CanonicalValue))
  | _, [] => .ok []
  | position, field :: rest => do
    let found := (record.recordField field.id).isSome
    let insert := maskContains mask position
    require (¬ (found = insert ∨ (found = false ∧ field.valueType.isOptional = false))) .integrity
    let later ← insertedNulls record mask (position + 1) rest
    .ok (if insert then (field.id, .null) :: later else later)

def maskFits (mask : Option InsertedNullMask) (schema : RecordSchema) : Bool :=
  mask.all (·.hasCanonicalShape schema.fields.length)

def normalizeRecord (record : StoredEntity) (schema : RecordSchema)
    (mask : Option InsertedNullMask) : Except MaterializationError StoredEntity := do
  require (maskFits mask schema) .integrity
  let inserted ← insertedNulls record.fields mask 0 schema.fields
  if inserted = [] then .ok record else record.withFields (record.fields.fields ++ inserted)

/-- A field that the mask marks is dropped, and must hold null. -/
def keptFields (schema : RecordSchema) (mask : Option InsertedNullMask) :
    List (FieldId × CanonicalValue) →
      Except MaterializationError (List (FieldId × CanonicalValue))
  | [] => .ok []
  | field :: rest => do
    let remove := (schema.fields.findIdx? (·.id = field.1)).any (maskContains mask)
    if remove then
      require (field.2 = .null) .integrity
      keptFields schema mask rest
    else
      let later ← keptFields schema mask rest
      .ok (field :: later)

/-- Every field of the schema is there, and the marked ones are optional. -/
def coversSchema (record : CanonicalRecord) (mask : Option InsertedNullMask) :
    Nat → List FieldSchema → Bool
  | _, [] => true
  | position, field :: rest =>
    (record.recordField field.id).isSome &&
      !(maskContains mask position && !field.valueType.isOptional) &&
      coversSchema record mask (position + 1) rest

def reconstructRawRecord (record : StoredEntity) (schema : RecordSchema)
    (mask : Option InsertedNullMask) : Except MaterializationError StoredEntity := do
  require (maskFits mask schema) .integrity
  let fields ← keptFields schema mask record.fields.fields
  require (coversSchema record.fields mask 0 schema.fields) .integrity
  record.withFields fields

def missingNulls (record : CanonicalRecord) (fields : List FieldSchema) :
    List (FieldId × CanonicalValue) :=
  (fields.filter fun field => (record.recordField field.id).isNone).map fun field =>
    (field.id, .null)

theorem mem_missingNulls {fields : List FieldSchema}
    {field : FieldId × CanonicalValue} : field ∈ missingNulls record fields ↔
      ∃ declared ∈ fields, (record.recordField declared.id).isNone = true ∧
        (declared.id, .null) = field := by
  simp only [missingNulls, mem_map, mem_filter, and_assoc]

theorem recordField_isSome_iff {fieldId : FieldId} :
    (record.recordField fieldId).isSome = true ↔ ∃ field ∈ record.fields, field.1 = fieldId := by
  rw [CanonicalRecord.recordField, List.lookup_isSome_iff]
  exact exists_congr fun field => and_congr_right fun _ => beq_iff_eq.trans eq_comm

variable {mask : Option InsertedNullMask}

/-- The mask marks the fields that the record lacks; they are optional and become null. -/
theorem insertedNulls_eq_ok
    {position : Nat} {fields : List FieldSchema} {inserted : List (FieldId × CanonicalValue)}
    (built : insertedNulls record mask position fields = .ok inserted) :
    inserted = missingNulls record fields ∧ ∀ index field, fields[index]? = some field →
        maskContains mask (position + index) = (record.recordField field.id).isNone ∧
          ((record.recordField field.id).isNone = true → field.valueType.isOptional = true) := by
  induction fields generalizing position inserted with
  | nil =>
    cases built
    simp [missingNulls]
  | cons first rest ih =>
    simp only [insertedNulls, bind_eq_ok, require_eq_ok, not_or, not_and, Except.ok.injEq] at built
    obtain ⟨_, ⟨apart, optional⟩, later, laterBuilt, rfl⟩ := built
    obtain ⟨laterIs, marks⟩ := ih laterBuilt
    have mark : maskContains mask position = (record.recordField first.id).isNone := by
      revert apart
      cases record.recordField first.id <;> cases maskContains mask position <;> simp
    constructor
    · rw [mark, laterIs]
      cases looked : (record.recordField first.id).isNone <;> simp [missingNulls, looked]
    · intro index field at'
      cases index with
      | zero =>
        rw [List.getElem?_cons_zero, Option.some.injEq] at at'
        subst at'
        refine ⟨mark, fun missing => ?_⟩
        have absent : (record.recordField first.id).isSome = false := by
          rw [Option.isNone_iff_eq_none] at missing
          rw [missing]
          rfl
        simpa using optional absent
      | succ index =>
        have step := marks index field (by simpa using at')
        rwa [Nat.add_right_comm, Nat.add_assoc] at step

variable {schema : RecordSchema}

theorem keptFields_eq {keep : FieldId → Bool} (marks : ∀ field ∈ fields,
      (schema.fields.findIdx? (·.id = field.1)).any (maskContains mask) = !keep field.1)
    (nulls : ∀ field ∈ fields, keep field.1 = false → field.2 = .null) :
    keptFields schema mask fields = .ok (fields.filter fun field => keep field.1) := by
  induction fields with
  | nil => rfl
  | cons first rest ih =>
    have later := ih (fun field member => marks field (mem_cons_of_mem _ member))
      (fun field member => nulls field (mem_cons_of_mem _ member))
    have mark := marks first mem_cons_self
    cases kept : keep first.1 with
    | true => simp [keptFields, mark, kept, later]
    | false =>
      have isNull := nulls first mem_cons_self kept
      simp [keptFields, mark, kept, later, isNull, require_pos]

theorem coversSchema_of {position : Nat} {fields : List FieldSchema}
    (present : ∀ field ∈ fields, (record.recordField field.id).isSome = true)
    (optional : ∀ index field, fields[index]? = some field →
      maskContains mask (position + index) = true → field.valueType.isOptional = true) :
    coversSchema record mask position fields = true := by
  induction fields generalizing position with
  | nil => rfl
  | cons first rest ih =>
    have here := optional 0 first rfl
    have later : coversSchema record mask (position + 1) rest = true := ih
      (fun field member => present field (mem_cons_of_mem _ member))
      (fun index field at' marked => optional (index + 1) field (by simpa using at') (by
        rwa [Nat.add_right_comm, Nat.add_assoc] at marked))
    rw [coversSchema, present first mem_cons_self, later]
    cases marked : maskContains mask position with
    | false => rfl
    | true => rw [here marked]; rfl

section

variable {record filled : StoredEntity} (built : normalizeRecord record schema mask = .ok filled)

include built

/-- What filling in did: nothing but adding a null for each field that was missing. -/
theorem normalizeRecord_eq_ok :
    filled.target = record.target ∧ filled.entityVersion = record.entityVersion ∧
      filled.writtenByContract = record.writtenByContract ∧
        filled.schemaBinding = record.schemaBinding ∧
      filled.fields.fields.Perm
        (record.fields.fields ++ missingNulls record.fields schema.fields) := by
  simp only [normalizeRecord, bind_eq_ok] at built
  obtain ⟨_, _, inserted, insertedBuilt, built⟩ := built
  obtain ⟨rfl, _⟩ := insertedNulls_eq_ok insertedBuilt
  split at built
  · next nothing =>
    cases built
    rw [nothing, append_nil]
    exact ⟨rfl, rfl, rfl, rfl, List.Perm.refl _⟩
  · obtain ⟨fields, target, version, writer, binding⟩ := withFields_eq_ok built
    refine ⟨target, version, writer, binding, ?_⟩
    rw [(new_eq_ok fields).1]
    exact mergeSort_perm _ _

/-- Rebuilding with the same mask gives back the stored record. -/
theorem reconstructRawRecord_normalizeRecord :
    reconstructRawRecord filled schema mask = .ok record := by
  obtain ⟨target, version, writer, binding, perm⟩ := normalizeRecord_eq_ok built
  simp only [normalizeRecord, bind_eq_ok, require_eq_ok] at built
  obtain ⟨_, fits, inserted, insertedBuilt, _⟩ := built
  obtain ⟨_, marks⟩ := insertedNulls_eq_ok insertedBuilt
  let keep : FieldId → Bool := fun id => (record.fields.recordField id).isSome
  have stored : ∀ field ∈ record.fields.fields, keep field.1 = true := fun field member =>
    recordField_isSome_iff.mpr ⟨field, member, rfl⟩
  have added : ∀ field ∈ missingNulls record.fields schema.fields,
      keep field.1 = false ∧ field.2 = .null ∧ ∃ declared ∈ schema.fields,
        declared.id = field.1 := by
    intro field member
    obtain ⟨declared, isDeclared, missing, rfl⟩ := mem_missingNulls.mp member
    refine ⟨?_, rfl, declared, isDeclared, rfl⟩
    simp only [keep, Option.isSome_eq_false_iff]
    exact missing
  -- the mask marks a field of the filled record exactly when the stored one lacks it
  have keptIs : keptFields schema mask filled.fields.fields =
      .ok (filled.fields.fields.filter fun field => keep field.1) := by
    refine keptFields_eq (fun field member => ?_) fun field member dropped => ?_
    · cases place : schema.fields.findIdx? (·.id = field.1) with
      | some index =>
        obtain ⟨inside, sameId, _⟩ := List.findIdx?_eq_some_iff_getElem.mp place
        have mark := (marks index _ (List.getElem?_eq_getElem inside)).1
        rw [Nat.zero_add, of_decide_eq_true sameId] at mark
        rw [Option.any_some, mark]
        exact (Option.not_isSome _).symm
      | none =>
        rcases mem_append.mp (perm.mem_iff.mp member) with isStored | isAdded
        · rw [stored field isStored]
          rfl
        · obtain ⟨_, _, declared, isDeclared, sameId⟩ := added field isAdded
          have other := List.findIdx?_eq_none_iff.mp place declared isDeclared
          rw [sameId] at other
          simp at other
    · rcases mem_append.mp (perm.mem_iff.mp member) with isStored | isAdded
      · rw [stored field isStored] at dropped
        cases dropped
      · exact (added field isAdded).2.1
  have rebuilt :
      (filled.fields.fields.filter fun field => keep field.1) = record.fields.fields := by
    have nothing :
        ((missingNulls record.fields schema.fields).filter fun field => keep field.1) = [] := by
      refine filter_eq_nil_iff.mpr fun field member => ?_
      rw [(added field member).1]
      exact Bool.false_ne_true
    have filtered := perm.filter fun field => keep field.1
    rw [filter_append, filter_eq_self.mpr stored, nothing, append_nil] at filtered
    refine filtered.eq_of_pairwise (fun left right _ _ low high => ?_)
      (filled.fields.increasing.filter _) record.fields.increasing
    exact absurd (UInt32.lt_trans low high) (UInt32.lt_irrefl _)
  have covers : coversSchema filled.fields mask 0 schema.fields = true := by
    refine coversSchema_of (fun field member => ?_) fun index field at' marked => ?_
    · refine recordField_isSome_iff.mpr ?_
      cases looked : (record.fields.recordField field.id).isNone with
      | true =>
        refine ⟨(field.id, .null), perm.mem_iff.mpr (mem_append_right _ ?_), rfl⟩
        exact mem_missingNulls.mpr ⟨field, member, looked, rfl⟩
      | false =>
        rw [Option.isNone_eq_false_iff] at looked
        obtain ⟨own, ownMember, sameId⟩ := recordField_isSome_iff.mp looked
        exact ⟨own, perm.mem_iff.mpr (mem_append_left _ ownMember), sameId⟩
    · obtain ⟨mark, optional⟩ := marks index field at'
      exact optional (mark.symm.trans marked)
  rw [reconstructRawRecord, require_pos fits, ok_bind, keptIs, ok_bind, require_pos covers, ok_bind,
    rebuilt, withFields_of_same target version writer binding]
  exact record.withFields_self

end

end RecordMaterialization
