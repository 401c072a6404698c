import RiffDb.ByteReader
import RiffDb.KeyEncoding
import RiffDb.ValueTypes

/-!
# Schema-directed keys

Entity, partition, conflict and index keys are written component by component behind an envelope of
purpose and owner, without framing. A schema fixes the type and the physical codec of each
component; an index key ends with the key of its entity, behind a length.

Two walkers read keys back, one complete keys and one index keys, and both can drop the values they
have checked. The prefixes that index scans start from are only written.
-/

namespace KeySchemas

open ByteWire CheckedCode ByteReader CanonicalScalars CanonicalValues OrderedBytes KeyEncoding
  ValueTypes

/-- Physical codec of one key component. -/
inductive KeyComponentCodecV1 where
  | canonical
  | orderedBytes
deriving DecidableEq

inductive KeyPurpose where
  | entity (entityType : EntityTypeId)
  | partition (aggregate : AggregateTypeId)
  | conflict (aggregate : AggregateTypeId)
  | index (indexId : IndexId) (entityType : EntityTypeId)
deriving DecidableEq

def KeyPurpose.isPartition : KeyPurpose → Bool
  | .partition _ => true
  | _ => false

/-- The longest payload of one component. -/
def authoritativeComponentMaximum : KeyComponentCodecV1 → ValueType → Except IrValidationError Nat
  | .orderedBytes, .bytes maximum => .ok (maximum * 2 + 2)
  | .orderedBytes, _ => .error (.invalidKey "ordered key component must be bounded bytes")
  | .canonical, .bool => .ok 1
  | .canonical, .i64 => .ok 8
  | .canonical, .u64 => .ok 8
  | .canonical, .timestamp => .ok 12
  | .canonical, .date => .ok 4
  | .canonical, .enumeration _ => .ok 4
  | .canonical, .uuid => .ok 16
  | .canonical, .string maximum => .ok (maximum + 4)
  | .canonical, .bytes maximum => .ok (maximum + 4)
  | .canonical, _ => .error (.invalidKey "type is not a v1 authoritative key scalar")

/-- One component, with the payload bound its type and codec imply. -/
structure KeyComponentSchema where
  valueType : ValueType
  enumVariants : List EnumVariantId
  codec : KeyComponentCodecV1
  maximumPayloadBytes : Nat
  bounded : authoritativeComponentMaximum codec valueType = .ok maximumPayloadBytes

namespace KeyComponentSchema

end KeyComponentSchema

/-- Purpose, components, the schema of the entity key an index entry ends with, and the longest
complete key. -/
inductive KeySchema where
  | mk (purpose : KeyPurpose) (components : List KeyComponentSchema)
      (entityKeySchema : Option KeySchema) (maximumEncodedBytes : Nat)

def completeKeyMaximum (components : List KeyComponentSchema) (nestedEntityMaximum : Option Nat) :
    Except IrValidationError Nat := do
  let leading := 6 + (components.map (·.maximumPayloadBytes)).sum
  let total := match nestedEntityMaximum with
    | some maximum => leading + 4 + maximum
    | none => leading
  checkedLen "maximum encoded key" total maxKeyBytes
  .ok total

namespace KeySchema

def purpose : KeySchema → KeyPurpose
  | .mk purpose _ _ _ => purpose

def components : KeySchema → List KeyComponentSchema
  | .mk _ components _ _ => components

def entityKeySchema : KeySchema → Option KeySchema
  | .mk _ _ entityKeySchema _ => entityKeySchema

def maximumEncodedBytes : KeySchema → Nat
  | .mk _ _ _ maximum => maximum

/-- An entity, partition or conflict schema. -/
def new (purpose : KeyPurpose) (components : List KeyComponentSchema) :
    Except IrValidationError KeySchema :=
  match purpose with
  | .index _ _ => .error (.invalidKey "index key schema requires its owning entity key schema")
  | _ => do
    require (components ≠ []) (.empty "key components")
    require (purpose.isPartition = true → components.length = 1)
      (.invalidKey "partition key schema must contain exactly one component")
    checkedLen "key components" components.length 1024
    let maximum ← completeKeyMaximum components none
    .ok (.mk purpose components none maximum)

/-- A complete local-index entry schema. -/
def index (indexId : IndexId) (entityType : EntityTypeId) (components : List KeyComponentSchema)
    (entityKeySchema : KeySchema) : Except IrValidationError KeySchema := do
  require (entityKeySchema.purpose = .entity entityType)
    (.invalidKey "index entity key schema has the wrong owner")
  require (components ≠ []) (.empty "index components")
  checkedLen "index components" components.length 1024
  let maximum ← completeKeyMaximum components (some entityKeySchema.maximumEncodedBytes)
  .ok (.mk (.index indexId entityType) components (some entityKeySchema) maximum)

end KeySchema

inductive KeyBytesError where
  | tooLong (actual maximum : Nat)
  | tooShort (actual minimum : Nat)
  | wrongPurpose (expected actual : UInt8)
  | unsupportedVersion (version : UInt8)
  | zeroTypeIdentity
deriving DecidableEq

def typedKeyEnvelopeBytes : Nat := 6

@[ext] structure EntityKey where
  asBytes : Bytes
deriving DecidableEq

@[ext] structure PartitionKey where
  asBytes : Bytes
deriving DecidableEq

@[ext] structure ConflictKey where
  asBytes : Bytes
deriving DecidableEq

@[ext] structure IndexEntryKey where
  asBytes : Bytes
deriving DecidableEq

/-- The envelope and the hard size bounds of a key with the given purpose and version. -/
def checkKeyBytes (purpose version : UInt8) (minimum : Nat) (bytes : Bytes) :
    Except KeyBytesError Unit := do
  require (bytes.length ≤ maxKeyBytes) (.tooLong bytes.length maxKeyBytes)
  require (minimum ≤ bytes.length) (.tooShort bytes.length minimum)
  require (bytes[0]? = some purpose) (.wrongPurpose purpose (bytes[0]?.getD 0))
  require (bytes[1]? = some version) (.unsupportedVersion (bytes[1]?.getD 0))
  require (slice bytes 2 typedKeyEnvelopeBytes ≠ [0, 0, 0, 0]) .zeroTypeIdentity

def EntityKey.fromBytes (bytes : Bytes) : Except KeyBytesError EntityKey := do
  checkKeyBytes 0x45 0x01 typedKeyEnvelopeBytes bytes
  .ok ⟨bytes⟩

/-- The declared variants are sorted; a search finds exactly those among them. -/
def declares (schema : KeyComponentSchema) : CanonicalValue → Bool
  | .enum _ variantId => variantId ∈ schema.enumVariants
  | _ => true

def validateKeyValue (schema : KeyComponentSchema) (value : CanonicalValue) :
    Except IrValidationError Unit := do
  schema.valueType.validateValue value
  require (declares schema value = true)
    (.invalidKey "enum key component has an undeclared variant")

/-- The bytes of one ordered-byte component. -/
def pushOrderedValue (builder : KeyBuilder) : CanonicalValue → Except IrValidationError KeyBuilder
  | .bytes value => (builder.pushOrderedBytes value.asBytes).mapError fun _ =>
      .invalidKey "ordered key exceeds its checked bound"
  | _ => .error (.invalidKey "ordered key component requires bytes")

/-- A push that may only fail at the key bound. -/
def withinBound (pushed : Except KeyEncodingError KeyBuilder) :
    Except IrValidationError KeyBuilder :=
  pushed.mapError fun _ => .invalidKey "key exceeds its checked bound"

def pushCanonicalValue (builder : KeyBuilder) : CanonicalValue → Except IrValidationError KeyBuilder
  | .bool value => withinBound (builder.pushBool value)
  | .i64 value => withinBound (builder.pushI64 value)
  | .u64 value => withinBound (builder.pushU64 value)
  | .string value => withinBound (builder.pushStr value.text)
  | .bytes value => withinBound (builder.pushBytes value.asBytes)
  | .timestamp value => withinBound (builder.pushTimestamp value)
  | .date value => withinBound (builder.pushDate value)
  | .uuid value => withinBound (builder.pushUuid value)
  | .enum _ variantId => withinBound (builder.pushEnumVariant variantId)
  | _ => .error (.invalidKey "value is not a v1 authoritative key scalar")

def pushValue (builder : KeyBuilder) (value : CanonicalValue) :
    KeyComponentCodecV1 → Except IrValidationError KeyBuilder
  | .orderedBytes => pushOrderedValue builder value
  | .canonical => pushCanonicalValue builder value

def appendEach (builder : KeyBuilder) :
    List (KeyComponentSchema × CanonicalValue) → Except IrValidationError KeyBuilder
  | [] => .ok builder
  | (schema, value) :: rest => do
    validateKeyValue schema value
    let pushed ← pushValue builder value schema.codec
    appendEach pushed rest

def appendComponents (builder : KeyBuilder) (schemas : List KeyComponentSchema)
    (values : List CanonicalValue) : Except IrValidationError KeyBuilder := do
  require (values.length = schemas.length) (.invalidKey "wrong key component count")
  appendEach builder (schemas.zip values)

abbrev KeyCursor := Reader IrValidationError

def readArray (count : Nat) : KeyCursor (ByteArrayOf count) := array .unexpectedEnd count

def readU32 : KeyCursor UInt32 := do
  let bytes ← readArray 4
  pure (u32FromBeBytes bytes)

def expectPrefix (purpose : Bytes) (owner : UInt32) : KeyCursor Unit := do
  let found ← take .unexpectedEnd 2
  check (require (found = purpose) (.invalidKey "key envelope mismatch"))
  let actual ← readU32
  check (require (actual = owner) (.invalidKey "key envelope mismatch"))

/-- The sign bit of a signed word is stored flipped. -/
def unflip {count : Nat} (bytes : ByteArrayOf count) : ByteArrayOf count :=
  ⟨flipSign bytes.toList, by cases shape : bytes.toList with
    | nil => simpa [flipSign, shape] using bytes.toList_length
    | cons first rest => simpa [flipSign, shape] using bytes.toList_length⟩

def invalidEscape : IrValidationError := .invalidKey "invalid ordered-byte escape"

/-- A zero byte is followed by the terminator or by the mark of an escaped zero. -/
def readOrderedBytes : KeyCursor Bytes
  | [] => .error .unexpectedEnd
  | byte :: rest =>
      if byte = 0 then
        match rest with
        | [] => .error .unexpectedEnd
        | mark :: rest =>
            if mark = 0 then .ok ([], rest)
            else if mark = 0xff then (readOrderedBytes rest).map fun read => (0 :: read.1, read.2)
            else .error invalidEscape
      else (readOrderedBytes rest).map fun read => (byte :: read.1, read.2)

/-- The same walk, counting the bytes instead of keeping them. -/
def validateOrderedBytes : KeyCursor Nat
  | [] => .error .unexpectedEnd
  | byte :: rest =>
      if byte = 0 then
        match rest with
        | [] => .error .unexpectedEnd
        | mark :: rest =>
            if mark = 0 then .ok (0, rest)
            else if mark = 0xff then (validateOrderedBytes rest).map fun read =>
              (read.1 + 1, read.2)
            else .error invalidEscape
      else (validateOrderedBytes rest).map fun read => (read.1 + 1, read.2)

/-- The checks that stand in for those of the constructors when the value is dropped. -/
def checkDropped (oversized : IrValidationError) (largest : Nat) (bound : Option Nat)
    (length : Nat) : Except IrValidationError CanonicalValue := do
  require (length ≤ largest) oversized
  require (bound.any (length ≤ ·) = true) (.typeMismatch "canonical value")
  .ok .null

def bytesBound : ValueType → Option Nat
  | .bytes maximum => some maximum
  | _ => none

def readOrderedComponent (retain : Bool) (schema : KeyComponentSchema) : KeyCursor CanonicalValue :=
  let oversized := .invalidKey "oversized ordered bytes key"
  if retain then do
    let bytes ← readOrderedBytes
    let value ← check ((CanonicalBytes.new bytes).mapError fun _ => oversized)
    check (validateKeyValue schema (.bytes value))
    pure (.bytes value)
  else do
    let length ← validateOrderedBytes
    check (checkDropped oversized maxBytesValueBytes (bytesBound schema.valueType) length)

/-- Text that is not kept is still checked to be UTF-8. -/
def readStringComponent (retain : Bool) (schema : KeyComponentSchema) (maximum : Nat) :
    KeyCursor CanonicalValue := do
  let oversized := .invalidKey "oversized string key"
  let length ← readU32
  let bytes ← take .unexpectedEnd length.toNat
  let text ← check (okOr (fromUtf8 bytes) (.invalidText "key"))
  if retain then do
    let value ← check ((CanonicalString.new text).mapError fun _ => oversized)
    check (validateKeyValue schema (.string value))
    pure (.string value)
  else check (checkDropped oversized maxStringBytes (some maximum) length.toNat)

def readBytesComponent (retain : Bool) (schema : KeyComponentSchema) (maximum : Nat) :
    KeyCursor CanonicalValue := do
  let oversized := .invalidKey "oversized bytes key"
  let length ← readU32
  let bytes ← take .unexpectedEnd length.toNat
  if retain then do
    let value ← check ((CanonicalBytes.new bytes).mapError fun _ => oversized)
    check (validateKeyValue schema (.bytes value))
    pure (.bytes value)
  else check (checkDropped oversized maxBytesValueBytes (some maximum) length.toNat)

/-- The words of fixed width, which are formed whether or not they are kept. -/
def readWord : ValueType → KeyCursor CanonicalValue
  | .bool => do
    let byte ← take .unexpectedEnd 1
    check (if byte = [0] then .ok (.bool false) else if byte = [1] then .ok (.bool true)
      else .error (.invalidKey "invalid Boolean key"))
  | .i64 => do
    let bytes ← readArray 8
    pure (.i64 (i64FromBeBytes (unflip bytes)))
  | .u64 => do
    let bytes ← readArray 8
    pure (.u64 (u64FromBeBytes bytes))
  | .timestamp => do
    let seconds ← readArray 8
    let nanos ← readU32
    let value ← check ((Timestamp.new (i64FromBeBytes (unflip seconds)) nanos).mapError fun _ =>
      .invalidKey "invalid timestamp key")
    pure (.timestamp value)
  | .date => do
    let bytes ← readArray 4
    pure (.date ⟨i32FromBeBytes (unflip bytes)⟩)
  | .uuid => do
    let bytes ← readArray 16
    pure (.uuid bytes)
  | .enumeration typeId => do
    let raw ← readU32
    let variantId ← check (okOr (NonZeroU32.new raw) (.invalidKey "zero enum variant"))
    pure (.enum typeId variantId)
  | _ => check (.error (.invalidKey "invalid authoritative key component type"))

def readComponent (retain : Bool) (schema : KeyComponentSchema) : KeyCursor CanonicalValue :=
  match schema.codec, schema.valueType with
  | .orderedBytes, _ => readOrderedComponent retain schema
  | .canonical, .string maximum => readStringComponent retain schema maximum
  | .canonical, .bytes maximum => readBytesComponent retain schema maximum
  | .canonical, valueType => do
    let value ← readWord valueType
    check (validateKeyValue schema value)
    pure value

/-- The leading components, of which the values are returned only if they are retained. -/
def readComponents (retain : Bool) : List KeyComponentSchema → KeyCursor (List CanonicalValue)
  | [] => pure []
  | schema :: rest => do
    let value ← readComponent retain schema
    let values ← readComponents retain rest
    pure (if retain then value :: values else values)

def completeComponents (retain : Bool) (bytes purpose : Bytes) (owner : UInt32)
    (schemas : List KeyComponentSchema) : Except IrValidationError (List CanonicalValue) := do
  let (_, body) ← expectPrefix purpose owner bytes
  let (values, rest) ← readComponents retain schemas body
  require (rest = []) .trailingBytes
  .ok values

@[ext] structure DecodedIndexKey where
  values : List CanonicalValue
  entityKey : EntityKey

@[ext] structure IndexScanPrefix where
  indexId : IndexId
  componentCount : Nat
  asBytes : Bytes
deriving DecidableEq

namespace KeySchema

/-- The owner an operation of the given purpose needs. -/
def entityOwner : KeyPurpose → Except IrValidationError EntityTypeId
  | .entity owner => .ok owner
  | _ => .error (.invalidKey "not an entity key schema")

def partitionOwner : KeyPurpose → Except IrValidationError AggregateTypeId
  | .partition owner => .ok owner
  | _ => .error (.invalidKey "not a partition key schema")

def conflictOwner : KeyPurpose → Except IrValidationError AggregateTypeId
  | .conflict owner => .ok owner
  | _ => .error (.invalidKey "not a conflict key schema")

def indexOwner : KeyPurpose → Except IrValidationError IndexId
  | .index indexId _ => .ok indexId
  | _ => .error (.invalidKey "not an index key schema")

variable (schema : KeySchema)

def encodeEntity (values : List CanonicalValue) : Except IrValidationError EntityKey := do
  let owner ← entityOwner schema.purpose
  let key ← appendComponents (KeyBuilder.entityKeyBuilder owner) schema.components values
  .ok ⟨key.bytes⟩

def decodeEntity (key : EntityKey) : Except IrValidationError (List CanonicalValue) := do
  let owner ← entityOwner schema.purpose
  completeComponents true key.asBytes entityKeyV1Purpose owner.get schema.components

/-- The checks of `decodeEntity` without its values. -/
def validateEntity (key : EntityKey) : Except IrValidationError Unit := do
  let owner ← entityOwner schema.purpose
  let _ ← completeComponents false key.asBytes entityKeyV1Purpose owner.get schema.components
  .ok ()

def encodePartition (values : List CanonicalValue) : Except IrValidationError PartitionKey := do
  let owner ← partitionOwner schema.purpose
  let key ← appendComponents (KeyBuilder.partitionKeyBuilder owner) schema.components values
  .ok ⟨key.bytes⟩

def decodePartition (key : PartitionKey) : Except IrValidationError (List CanonicalValue) := do
  let owner ← partitionOwner schema.purpose
  completeComponents true key.asBytes partitionKeyV1Purpose owner.get schema.components

def encodeConflict (values : List CanonicalValue) : Except IrValidationError ConflictKey := do
  let owner ← conflictOwner schema.purpose
  let key ← appendComponents (KeyBuilder.conflictKeyBuilder owner) schema.components values
  .ok ⟨key.bytes⟩

def decodeConflict (key : ConflictKey) : Except IrValidationError (List CanonicalValue) := do
  let owner ← conflictOwner schema.purpose
  completeComponents true key.asBytes conflictKeyV1Purpose owner.get schema.components

def nestedSchema : Except IrValidationError KeySchema :=
  okOr schema.entityKeySchema (.invalidKey "missing entity key schema")

def encodeIndex (values : List CanonicalValue) (entityKey : EntityKey) :
    Except IrValidationError IndexEntryKey := do
  let indexId ← indexOwner schema.purpose
  let entitySchema ← schema.nestedSchema
  let _ ← entitySchema.decodeEntity entityKey
  let leading ← appendComponents (KeyBuilder.indexEntryKeyBuilder indexId) schema.components values
  let key ← (finishIndexEntry leading entityKey.asBytes).mapError fun _ =>
    .invalidKey "index entry key exceeds its bound"
  .ok ⟨key.bytes⟩

/-- The entity key behind the components, up to the end of the index key. -/
def readNested (nested : Bytes) : Except IrValidationError EntityKey := do
  let (length, nested) ← readU32 nested
  let (bytes, rest) ← take IrValidationError.unexpectedEnd length.toNat nested
  require (rest = []) .trailingBytes
  let entityKey ← (EntityKey.fromBytes bytes).mapError fun _ =>
    .invalidKey "invalid nested entity key envelope"
  let entitySchema ← schema.nestedSchema
  entitySchema.validateEntity entityKey
  .ok entityKey

/-- The one index-key walk both decoders run. -/
def walkIndex (retain : Bool) (schema : KeySchema) (key : IndexEntryKey) :
    Except IrValidationError (List CanonicalValue × EntityKey) := do
  let indexId ← indexOwner schema.purpose
  let (_, body) ← expectPrefix indexEntryKeyV1Purpose indexId.get key.asBytes
  let (values, nested) ← readComponents retain schema.components body
  let entityKey ← schema.readNested nested
  .ok (values, entityKey)

def decodeIndex (key : IndexEntryKey) : Except IrValidationError DecodedIndexKey := do
  let (values, entityKey) ← walkIndex true schema key
  .ok ⟨values, entityKey⟩

def decodeIndexEntityKey (key : IndexEntryKey) : Except IrValidationError EntityKey := do
  let (_, entityKey) ← walkIndex false schema key
  .ok entityKey

def encodeIndexPrefix (values : List CanonicalValue) :
    Except IrValidationError IndexScanPrefix := do
  let indexId ← indexOwner schema.purpose
  require (values.length ≤ schema.components.length)
    (.invalidKey "index prefix has too many components")
  let key ← appendComponents (KeyBuilder.indexEntryKeyBuilder indexId)
    (schema.components.take values.length) values
  .ok ⟨indexId, values.length, key.bytes⟩

end KeySchema

end KeySchemas
