import RiffDb.CanonicalValues

/-!
# The closed type algebra of the contract

Every stored field, command input and key component has one of these types. A type admits null only
when it is optional, and an optional type is not nested in another one. Other bounds of the
constructors are not used below.
-/

namespace ValueTypes

open CheckedCode CanonicalScalars CanonicalValues

abbrev EntityTypeId := NonZeroU32

abbrev AggregateTypeId := NonZeroU32

abbrev EventTypeId := NonZeroU32

abbrev CommandId := NonZeroU32

abbrev OutcomeId := NonZeroU32

abbrev ProjectionId := NonZeroU32

abbrev IndexId := NonZeroU32

inductive IrValidationError where
  | empty (kind : String)
  | invalidKey (reason : String)
  | invalidText (kind : String)
  | limitExceeded (kind : String) (actual maximum : Nat)
  | nonCanonicalOrder (kind : String)
  | typeMismatch (context : String)
  | unexpectedEnd
  | trailingBytes
deriving DecidableEq

def checkedLen (kind : String) (actual maximum : Nat) : Except IrValidationError Unit :=
  require (actual ≤ maximum) (.limitExceeded kind actual maximum)

/-- The stable owner of one record schema. -/
inductive RecordTypeRef where
  | entity (entityType : EntityTypeId)
  | event (eventType : EventTypeId)
  | commandInput (command : CommandId)
  | commandOutcome (command : CommandId) (outcome : OutcomeId)
  | projectionResult (projection : ProjectionId)
deriving DecidableEq

inductive ValueType where
  | bool
  | i64
  | u64
  | decimal (spec : DecimalSpec)
  | money (currency : CurrencyCode)
  | string (maximum : Nat)
  | bytes (maximum : Nat)
  | timestamp
  | date
  | uuid
  | enumeration (typeId : EnumTypeId)
  | optional (inner : ValueType)
  | list (element : ValueType) (maximum : Nat)
  | record (owner : RecordTypeRef)
  | vector (dimension : Nat)
deriving DecidableEq

namespace ValueType

def isOptional : ValueType → Bool
  | .optional _ => true
  | _ => false

def enumTypeId : ValueType → Option EnumTypeId
  | .enumeration typeId => some typeId
  | _ => none

def moneySpec : DecimalSpec := ⟨maxDecimalPrecision, 2, by decide, by decide⟩

/-- Null belongs to optional types only; any other value is checked against the inner type. -/
def accepts : ValueType → CanonicalValue → Bool
  | .optional inner, value =>
      match value with
      | .null => true
      | other => accepts inner other
  | .bool, .bool _ => true
  | .i64, .i64 _ => true
  | .u64, .u64 _ => true
  | .timestamp, .timestamp _ => true
  | .date, .date _ => true
  | .uuid, .uuid _ => true
  | .decimal spec, .decimal value => value.spec = spec
  | .money currency, .money value => value.currency = currency ∧ value.amount.spec = moneySpec
  | .string maximum, .string value => (utf8Bytes value.text).length ≤ maximum
  | .bytes maximum, .bytes value => value.asBytes.length ≤ maximum
  | .enumeration typeId, .enum actual _ => typeId = actual
  | .list element maximum, .list values => values.length ≤ maximum && values.all (accepts element)
  | .record _, .record _ => true
  | .vector dimension, .vector value => value.components.length = dimension
  | _, _ => false

def validateValue (type : ValueType) (value : CanonicalValue) : Except IrValidationError Unit :=
  require (type.accepts value = true) (.typeMismatch "canonical value")

end ValueType

end ValueTypes
