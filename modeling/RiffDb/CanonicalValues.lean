import RiffDb.CanonicalScalars
import Mathlib.Data.List.Sort

/-!
# The canonical value algebra

Values as the checked constructors form them: bounded texts and byte strings, lists of bounded
length and records in strictly increasing order of their identifiers, nested no deeper than the
limit. The enumeration itself is open; `Constructed` says that a value passed the constructors.
-/

namespace CanonicalValues

open ByteWire CheckedCode CanonicalScalars

def maxListEntries : Nat := 65535

def maxRecordFields : Nat := 65535

def maxNestingDepth : Nat := 32

inductive CanonicalValue where
  | null
  | bool (value : Bool)
  | i64 (value : Int64)
  | u64 (value : UInt64)
  | decimal (value : Decimal)
  | money (value : Money)
  | string (value : CanonicalString)
  | bytes (value : CanonicalBytes)
  | timestamp (value : Timestamp)
  | date (value : Date)
  | uuid (value : ByteArrayOf 16)
  | enum (typeId : EnumTypeId) (variantId : EnumVariantId)
  | list (values : List CanonicalValue)
  | record (fields : List (FieldId × CanonicalValue))
  | vector (value : CanonicalVector)

namespace CanonicalValue

mutual

/-- Levels of nonempty lists and records below the value. -/
def nestingDepth : CanonicalValue → Nat
  | .list values => childDepth values
  | .record fields => fieldDepth fields
  | _ => 0

/-- One more than the deepest child, and zero without children. -/
def childDepth : List CanonicalValue → Nat
  | [] => 0
  | value :: rest => max (nestingDepth value + 1) (childDepth rest)

def fieldDepth : List (FieldId × CanonicalValue) → Nat
  | [] => 0
  | (_, value) :: rest => max (nestingDepth value + 1) (fieldDepth rest)

end

theorem fieldDepth_eq (fields : List (FieldId × CanonicalValue)) :
    fieldDepth fields = childDepth (fields.map Prod.snd) := by
  induction fields with
  | nil => rfl
  | cons field rest ih => rw [List.map_cons, childDepth, fieldDepth, ih]

theorem childDepth_le {values : List CanonicalValue} {bound : Nat} :
    childDepth values ≤ bound ↔ ∀ value ∈ values, value.nestingDepth < bound := by
  induction values with
  | nil => simp [childDepth]
  | cons value rest ih => simp [childDepth, ih]

end CanonicalValue

inductive ValueError where
  | stringTooLong (actual maximum : Nat)
  | bytesTooLong (actual maximum : Nat)
  | tooManyListEntries (actual maximum : Nat)
  | tooManyRecordFields (actual maximum : Nat)
  | duplicateRecordField (fieldId : FieldId)
  | nestingTooDeep (depth maximum : Nat)
deriving DecidableEq

def CanonicalString.new (text : String) : Except ValueError CanonicalString :=
  if bounded : (utf8Bytes text).length ≤ maxStringBytes then .ok ⟨text, bounded⟩
  else .error (.stringTooLong (utf8Bytes text).length maxStringBytes)

def CanonicalBytes.new (bytes : Bytes) : Except ValueError CanonicalBytes :=
  if bounded : bytes.length ≤ maxBytesValueBytes then .ok ⟨bytes, bounded⟩
  else .error (.bytesTooLong bytes.length maxBytesValueBytes)

theorem CanonicalString.new_eq_ok {text : String} {value : CanonicalString} :
    CanonicalString.new text = .ok value ↔ value.text = text := by
  unfold CanonicalString.new
  constructor
  · intro built
    split at built
    · cases built; rfl
    · cases built
  · rintro rfl
    rw [dif_pos value.bounded]

theorem CanonicalBytes.new_eq_ok {bytes : Bytes} {value : CanonicalBytes} :
    CanonicalBytes.new bytes = .ok value ↔ value.asBytes = bytes := by
  unfold CanonicalBytes.new
  constructor
  · intro built
    split at built
    · cases built; rfl
    · cases built
  · rintro rfl
    rw [dif_pos value.bounded]

def validateChildDepth (children : List CanonicalValue) : Except ValueError Unit :=
  let depth := CanonicalValue.childDepth children
  require (depth ≤ maxNestingDepth) (.nestingTooDeep depth maxNestingDepth)

def CanonicalList.new (values : List CanonicalValue) : Except ValueError (List CanonicalValue) := do
  require (values.length ≤ maxListEntries) (.tooManyListEntries values.length maxListEntries)
  validateChildDepth values
  .ok values

open CanonicalValue

theorem CanonicalList.new_eq_ok {values result : List CanonicalValue} :
    CanonicalList.new values = .ok result ↔ values.length ≤ maxListEntries ∧
      childDepth values ≤ maxNestingDepth ∧ values = result := by
  simp only [CanonicalList.new, validateChildDepth, bind_eq_ok, require_eq_ok, exists_const,
    Except.ok.injEq]

/-- The first identifier that equals its successor's. -/
def duplicateField : List (FieldId × CanonicalValue) → Option FieldId
  | first :: second :: rest =>
      if first.1 = second.1 then some first.1 else duplicateField (second :: rest)
  | _ => none

/-- Fields are sorted by identifier; equal identifiers then stand next to each other. -/
def CanonicalRecord.new (fields : List (FieldId × CanonicalValue)) :
    Except ValueError (List (FieldId × CanonicalValue)) := do
  require (fields.length ≤ maxRecordFields) (.tooManyRecordFields fields.length maxRecordFields)
  let sorted := fields.mergeSort fun left right => left.1.get ≤ right.1.get
  match duplicateField sorted with
  | some fieldId => .error (.duplicateRecordField fieldId)
  | none => do
    validateChildDepth (sorted.map Prod.snd)
    .ok sorted

/-- Strictly increasing identifiers. -/
def Increasing (fields : List (FieldId × CanonicalValue)) : Prop :=
  fields.Pairwise fun left right => left.1.get < right.1.get

/-- Fields that already increase are kept as they stand. -/
theorem CanonicalRecord.new_of_increasing {fields : List (FieldId × CanonicalValue)}
    (bounded : fields.length ≤ maxRecordFields) (increasing : Increasing fields)
    (shallow : fieldDepth fields ≤ maxNestingDepth) : CanonicalRecord.new fields = .ok fields := by
  have sorted :
      fields.mergeSort (fun left right => decide (left.1.get ≤ right.1.get)) = fields := by
    apply List.mergeSort_of_pairwise
    exact increasing.imp fun less => decide_eq_true (UInt32.le_of_lt less)
  have distinct : duplicateField fields = none := by
    clear bounded shallow sorted
    induction fields with
    | nil => rfl
    | cons first rest ih =>
      obtain ⟨below, others⟩ := List.pairwise_cons.mp increasing
      cases rest with
      | nil => rfl
      | cons second rest =>
        have apart : first.1 ≠ second.1 := by
          intro same
          exact absurd (below second List.mem_cons_self) (by rw [same]; exact UInt32.lt_irrefl _)
        rw [duplicateField, if_neg apart]
        exact ih others
  rw [fieldDepth_eq] at shallow
  simp only [CanonicalRecord.new, require_pos bounded, ok_bind, sorted, distinct,
    validateChildDepth, require_pos shallow]

/-- Values the checked constructors can form. -/
inductive Constructed : CanonicalValue → Prop where
  | null : Constructed .null
  | bool (value : Bool) : Constructed (.bool value)
  | i64 (value : Int64) : Constructed (.i64 value)
  | u64 (value : UInt64) : Constructed (.u64 value)
  | decimal (value : Decimal) : Constructed (.decimal value)
  | money (value : Money) : Constructed (.money value)
  | string (value : CanonicalString) : Constructed (.string value)
  | bytes (value : CanonicalBytes) : Constructed (.bytes value)
  | timestamp (value : Timestamp) : Constructed (.timestamp value)
  | date (value : Date) : Constructed (.date value)
  | uuid (value : ByteArrayOf 16) : Constructed (.uuid value)
  | enum (typeId : EnumTypeId) (variantId : EnumVariantId) : Constructed (.enum typeId variantId)
  | list {values result : List CanonicalValue} (children : ∀ value ∈ values, Constructed value)
      (built : CanonicalList.new values = .ok result) : Constructed (.list result)
  | record {fields result : List (FieldId × CanonicalValue)}
      (children : ∀ field ∈ fields, Constructed field.2)
      (built : CanonicalRecord.new fields = .ok result) : Constructed (.record result)
  | vector (value : CanonicalVector) : Constructed (.vector value)

end CanonicalValues
