import RiffDb.ByteReader
import RiffDb.CanonicalValues

/-!
# The canonical value encoding

Every value, nested ones included, is a version byte, a tag and a payload. The encoder checks the
document limit at each write and the nesting limit at each value; the decoder checks the document
limit once and refuses what is left over.

Both sides accept the same values and bytes: `encodable` says which values fit, and `document` is
their only encoding. The recursion is on the levels left below the nesting limit.
-/

namespace CanonicalCodec

open ByteWire ByteReader CheckedCode CanonicalScalars CanonicalValues CanonicalValue List

def maxCanonicalDocumentBytes : Nat := 1024 * 1024

def canonicalValueVersion : UInt8 := 0x01

def tagNull : UInt8 := 0x00
def tagBool : UInt8 := 0x01
def tagI64 : UInt8 := 0x02
def tagU64 : UInt8 := 0x03
def tagDecimal : UInt8 := 0x04
def tagMoney : UInt8 := 0x05
def tagString : UInt8 := 0x06
def tagBytes : UInt8 := 0x07
def tagTimestamp : UInt8 := 0x08
def tagDate : UInt8 := 0x09
def tagUuid : UInt8 := 0x0a
def tagEnum : UInt8 := 0x0b
def tagList : UInt8 := 0x0c
def tagRecord : UInt8 := 0x0d
def tagVector : UInt8 := 0x0e

inductive CollectionKind where
  | list
  | record
deriving DecidableEq, Repr

inductive BoundedKind where
  | string
  | bytes
deriving DecidableEq, Repr

inductive CanonicalCodecError where
  | documentTooLarge (actual maximum : Nat)
  | stringTooLarge (actual maximum : Nat)
  | bytesTooLarge (actual maximum : Nat)
  | tooManyEntries (kind : CollectionKind) (actual maximum : Nat)
  | nestingTooDeep (depth maximum : Nat)
  | unsupportedVersion (version : UInt8)
  | unknownTag (tag : UInt8)
  | vectorDimensionOutOfRange (actual maximum : Nat)
  | nonCanonicalVectorComponent (index : Nat)
  | invalidBoolean (value : UInt8)
  | invalidDecimal
  | invalidCurrency
  | invalidTimestamp
  | invalidUtf8
  | nonCanonicalRecordOrder
  | zeroEnumTypeId
  | zeroEnumVariantId
  | zeroFieldId
  | unexpectedEnd
  | trailingBytes (count : Nat)
deriving DecidableEq, Repr

open CanonicalCodecError

def BoundedKind.maximum : BoundedKind → Nat
  | .string => maxStringBytes
  | .bytes => maxBytesValueBytes

def BoundedKind.tooLarge : BoundedKind → Nat → CanonicalCodecError
  | .string, actual => stringTooLarge actual maxStringBytes
  | .bytes, actual => bytesTooLarge actual maxBytesValueBytes

def CollectionKind.maximum : CollectionKind → Nat
  | .list => maxListEntries
  | .record => maxRecordFields

def CollectionKind.tooMany (kind : CollectionKind) (actual : Nat) : CanonicalCodecError :=
  tooManyEntries kind actual kind.maximum

/-- An identifier exceeds the one before it, if there was one. -/
def follows (previous : Option UInt32) (id : UInt32) : Bool := previous.all (· < id)

variable {previous : Option UInt32}

theorem follows_iff {id : UInt32} :
    follows previous id = true ↔ ∀ earlier ∈ previous, earlier < id := by
  cases previous <;> simp [follows]

section Encoder

/-- The output so far is passed along. -/
abbrev Encoder := StateT Bytes (Except CanonicalCodecError)

def write (bytes : Bytes) : Encoder Unit := fun output =>
  if output.length + bytes.length ≤ maxCanonicalDocumentBytes then .ok ((), output ++ bytes)
  else .error (documentTooLarge (output.length + bytes.length) maxCanonicalDocumentBytes)

def encodeDecimal (value : Decimal) : Encoder Unit := do
  write [value.spec.precision, value.spec.scale]
  write (twosComplement 16 value.coefficient)

def encodeBoundedBytes (value : Bytes) (kind : BoundedKind) : Encoder Unit := do
  check (require (value.length ≤ kind.maximum) (kind.tooLarge value.length))
  write (beBytes 4 value.length)
  write value

/-- Each identifier must exceed the one before it. -/
def encodeFields (encode : CanonicalValue → Encoder Unit) :
    Option UInt32 → List (FieldId × CanonicalValue) → Encoder Unit
  | _, [] => pure ()
  | previous, (fieldId, value) :: rest => do
    check (require (follows previous fieldId.get = true) nonCanonicalRecordOrder)
    write (u32ToBeBytes fieldId.get)
    encode value
    encodeFields encode (some fieldId.get) rest

/-- The levels left include the value itself; none is left one level below the limit. -/
def encodeValue : Nat → CanonicalValue → Encoder Unit
  | 0, _ => check (.error (nestingTooDeep (maxNestingDepth + 1) maxNestingDepth))
  | levels + 1, value => do
    write [canonicalValueVersion]
    match value with
    | .null => write [tagNull]
    | .bool value => write [tagBool, if value then 1 else 0]
    | .i64 value => do
      write [tagI64]
      write (i64ToBeBytes value)
    | .u64 value => do
      write [tagU64]
      write (u64ToBeBytes value)
    | .decimal value => do
      write [tagDecimal]
      encodeDecimal value
    | .money value => do
      write [tagMoney]
      write value.currency.asBytes.toList
      encodeDecimal value.amount
    | .string value => do
      write [tagString]
      encodeBoundedBytes (utf8Bytes value.text) .string
    | .bytes value => do
      write [tagBytes]
      encodeBoundedBytes value.asBytes .bytes
    | .timestamp value => do
      write [tagTimestamp]
      write (i64ToBeBytes value.seconds)
      write (u32ToBeBytes value.nanoseconds)
    | .date value => do
      write [tagDate]
      write (i32ToBeBytes value.daysSinceUnixEpoch)
    | .uuid value => do
      write [tagUuid]
      write value.toList
    | .enum typeId variantId => do
      write [tagEnum]
      write (u32ToBeBytes typeId.get)
      write (u32ToBeBytes variantId.get)
    | .list values => do
      check (require (values.length ≤ maxListEntries) (CollectionKind.list.tooMany values.length))
      write [tagList]
      write (beBytes 4 values.length)
      values.forM (encodeValue levels)
    | .record fields => do
      check (require (fields.length ≤ maxRecordFields)
        (CollectionKind.record.tooMany fields.length))
      write [tagRecord]
      write (beBytes 4 fields.length)
      encodeFields (encodeValue levels) none fields
    | .vector value => do
      write [tagVector]
      write (beBytes 4 value.components.length)
      value.components.forM fun component => write (u32ToBeBytes component.bits)

def encodeCanonicalValue (value : CanonicalValue) : Except CanonicalCodecError Bytes :=
  (encodeValue (maxNestingDepth + 1) value []).map (·.2)

end Encoder

section Decoder

abbrev Decoder := Reader CanonicalCodecError

def readU8 : Decoder UInt8
  | [] => .error unexpectedEnd
  | byte :: rest => .ok (byte, rest)

def readArray (count : Nat) : Decoder (ByteArrayOf count) := array unexpectedEnd count

def readU32 : Decoder UInt32 := do
  let bytes ← readArray 4
  pure (u32FromBeBytes bytes)

def decodeDecimal : Decoder Decimal := do
  let precision ← readU8
  let scale ← readU8
  let coefficient ← readArray 16
  let spec ← check ((DecimalSpec.new precision scale).mapError fun _ => invalidDecimal)
  check ((Decimal.new spec (signedValue coefficient.toList)).mapError fun _ => invalidDecimal)

def decodeBoundedBytes (kind : BoundedKind) : Decoder Bytes := do
  let length ← readU32
  check (require (length.toNat ≤ kind.maximum) (kind.tooLarge length.toNat))
  take unexpectedEnd length.toNat

def readCollectionCount (kind : CollectionKind) : Decoder Nat := do
  let count ← readU32
  check (require (count.toNat ≤ kind.maximum) (kind.tooMany count.toNat))
  pure count.toNat

/-- The order is checked on the raw identifier, before zero is refused. -/
def decodeFields (decode : Decoder CanonicalValue) :
    Nat → Option UInt32 → Decoder (List (FieldId × CanonicalValue))
  | 0, _ => pure []
  | count + 1, previous => do
    let rawFieldId ← readU32
    check (require (follows previous rawFieldId = true) nonCanonicalRecordOrder)
    let fieldId ← check (okOr (NonZeroU32.new rawFieldId) zeroFieldId)
    let value ← decode
    let rest ← decodeFields decode count (some rawFieldId)
    pure ((fieldId, value) :: rest)

/-- Noncanonical components are refused, never repaired. -/
def decodeComponents : Nat → Nat → Decoder (List F32)
  | 0, _ => pure []
  | count + 1, index => do
    let bits ← readU32
    check (require ((F32.mk bits).isCanonical = true) (nonCanonicalVectorComponent index))
    let rest ← decodeComponents count (index + 1)
    pure (⟨bits⟩ :: rest)

def decodeVector : Decoder CanonicalVector := do
  let dimension ← readU32
  check (require (dimension.toNat ≠ 0 ∧ dimension.toNat ≤ maxVectorDimension)
    (vectorDimensionOutOfRange dimension.toNat maxVectorDimension))
  let components ← decodeComponents dimension.toNat 0
  check ((CanonicalVector.new components).mapError fun reason =>
    match reason with
    | .dimensionOutOfRange .. => vectorDimensionOutOfRange dimension.toNat maxVectorDimension
    | .nonFiniteComponent index => nonCanonicalVectorComponent index)

def decodeBool : Decoder Bool := do
  let value ← readU8
  check (if value = 0 then .ok false else if value = 1 then .ok true
    else .error (invalidBoolean value))

def decodeMoney : Decoder Money := do
  let currencyBytes ← readArray 3
  check (require ((fromUtf8 currencyBytes.toList).isSome = true) invalidCurrency)
  let currency ← check ((CurrencyCode.new currencyBytes.toList).mapError fun _ => invalidCurrency)
  let amount ← decodeDecimal
  pure ⟨currency, amount⟩

def decodeString : Decoder CanonicalString := do
  let bytes ← decodeBoundedBytes .string
  let text ← check (okOr (fromUtf8 bytes) invalidUtf8)
  check ((CanonicalString.new text).mapError fun _ => stringTooLarge bytes.length maxStringBytes)

def decodeBytes : Decoder CanonicalBytes := do
  let bytes ← decodeBoundedBytes .bytes
  check ((CanonicalBytes.new bytes).mapError fun _ => bytesTooLarge bytes.length maxBytesValueBytes)

def decodeTimestamp : Decoder Timestamp := do
  let seconds ← readArray 8
  let nanos ← readU32
  check ((Timestamp.new (i64FromBeBytes seconds) nanos).mapError fun _ => invalidTimestamp)

def decodeEnum : Decoder (EnumTypeId × EnumVariantId) := do
  let rawType ← readU32
  let typeId ← check (okOr (NonZeroU32.new rawType) zeroEnumTypeId)
  let rawVariant ← readU32
  let variantId ← check (okOr (NonZeroU32.new rawVariant) zeroEnumVariantId)
  pure (typeId, variantId)

def decodeList (decode : Decoder CanonicalValue) : Decoder (List CanonicalValue) := do
  let count ← readCollectionCount .list
  let values ← repeated decode count
  check ((CanonicalList.new values).mapError fun _ => CollectionKind.list.tooMany count)

def decodeRecord (decode : Decoder CanonicalValue) : Decoder (List (FieldId × CanonicalValue)) := do
  let count ← readCollectionCount .record
  decodeFields decode count none

/-- What follows a tag. -/
def decodePayload (decode : Decoder CanonicalValue) (tag : UInt8) : Decoder CanonicalValue :=
  if tag = tagNull then pure .null
  else if tag = tagBool then CanonicalValue.bool <$> decodeBool
  else if tag = tagI64 then (fun bytes => .i64 (i64FromBeBytes bytes)) <$> readArray 8
  else if tag = tagU64 then (fun bytes => .u64 (u64FromBeBytes bytes)) <$> readArray 8
  else if tag = tagDecimal then CanonicalValue.decimal <$> decodeDecimal
  else if tag = tagMoney then CanonicalValue.money <$> decodeMoney
  else if tag = tagString then CanonicalValue.string <$> decodeString
  else if tag = tagBytes then CanonicalValue.bytes <$> decodeBytes
  else if tag = tagTimestamp then CanonicalValue.timestamp <$> decodeTimestamp
  else if tag = tagDate then (fun bytes => .date ⟨i32FromBeBytes bytes⟩) <$> readArray 4
  else if tag = tagUuid then CanonicalValue.uuid <$> readArray 16
  else if tag = tagEnum then (fun ids => .enum ids.1 ids.2) <$> decodeEnum
  else if tag = tagList then CanonicalValue.list <$> decodeList decode
  else if tag = tagRecord then CanonicalValue.record <$> decodeRecord decode
  else if tag = tagVector then CanonicalValue.vector <$> decodeVector
  else check (.error (unknownTag tag))

def decodeValue : Nat → Decoder CanonicalValue
  | 0 => check (.error (nestingTooDeep (maxNestingDepth + 1) maxNestingDepth))
  | levels + 1 => do
    let version ← readU8
    check (require (version = canonicalValueVersion) (unsupportedVersion version))
    let tag ← readU8
    decodePayload (decodeValue levels) tag

def decodeCanonicalValue (input : Bytes) : Except CanonicalCodecError CanonicalValue := do
  require (input.length ≤ maxCanonicalDocumentBytes)
    (documentTooLarge input.length maxCanonicalDocumentBytes)
  let (value, rest) ← decodeValue (maxNestingDepth + 1) input
  require (rest = []) (trailingBytes rest.length)
  .ok value

end Decoder

variable {fields : List (FieldId × CanonicalValue)} {value : CanonicalValue}

section Document

def tagOf : CanonicalValue → UInt8
  | .null => tagNull
  | .bool _ => tagBool
  | .i64 _ => tagI64
  | .u64 _ => tagU64
  | .decimal _ => tagDecimal
  | .money _ => tagMoney
  | .string _ => tagString
  | .bytes _ => tagBytes
  | .timestamp _ => tagTimestamp
  | .date _ => tagDate
  | .uuid _ => tagUuid
  | .enum _ _ => tagEnum
  | .list _ => tagList
  | .record _ => tagRecord
  | .vector _ => tagVector

def decimalBytes (value : Decimal) : Bytes :=
  [value.spec.precision, value.spec.scale] ++ twosComplement 16 value.coefficient

def boundedBytes (bytes : Bytes) : Bytes := beBytes 4 bytes.length ++ bytes

def vectorBytes (vector : CanonicalVector) : Bytes :=
  beBytes 4 vector.components.length ++
    vector.components.flatMap fun component => u32ToBeBytes component.bits

mutual

/-- The bytes after the tag. -/
def payload : CanonicalValue → Bytes
  | .null => []
  | .bool value => [if value then 1 else 0]
  | .i64 value => i64ToBeBytes value
  | .u64 value => u64ToBeBytes value
  | .decimal value => decimalBytes value
  | .money value => value.currency.asBytes.toList ++ decimalBytes value.amount
  | .string value => boundedBytes (utf8Bytes value.text)
  | .bytes value => boundedBytes value.asBytes
  | .timestamp value => i64ToBeBytes value.seconds ++ u32ToBeBytes value.nanoseconds
  | .date value => i32ToBeBytes value.daysSinceUnixEpoch
  | .uuid value => value.toList
  | .enum typeId variantId => u32ToBeBytes typeId.get ++ u32ToBeBytes variantId.get
  | .list values => beBytes 4 values.length ++ listPayload values
  | .record fields => beBytes 4 fields.length ++ recordPayload fields
  | .vector value => vectorBytes value

def listPayload : List CanonicalValue → Bytes
  | [] => []
  | value :: rest => canonicalValueVersion :: tagOf value :: payload value ++ listPayload rest

def recordPayload : List (FieldId × CanonicalValue) → Bytes
  | [] => []
  | (fieldId, value) :: rest => u32ToBeBytes fieldId.get ++
      (canonicalValueVersion :: tagOf value :: payload value) ++ recordPayload rest

end

/-- The only encoding of a value. -/
def document (value : CanonicalValue) : Bytes :=
  canonicalValueVersion :: tagOf value :: payload value

theorem listPayload_eq (values : List CanonicalValue) :
    listPayload values = values.flatMap document := by
  induction values with
  | nil => rfl
  | cons value rest ih => rw [listPayload, ih, flatMap_cons, document]

def fieldDocument (field : FieldId × CanonicalValue) : Bytes :=
  u32ToBeBytes field.1.get ++ document field.2

theorem recordPayload_eq (fields : List (FieldId × CanonicalValue)) :
    recordPayload fields = fields.flatMap fieldDocument := by
  induction fields with
  | nil => rfl
  | cons field rest ih => rw [recordPayload, ih, flatMap_cons, fieldDocument, document]

/-- The values that fit into the levels left. -/
def Encodable : Nat → CanonicalValue → Prop
  | 0, _ => False
  | levels + 1, .list values =>
      values.length ≤ maxListEntries ∧ ∀ value ∈ values, Encodable levels value
  | levels + 1, .record fields => fields.length ≤ maxRecordFields ∧ Increasing fields ∧
      ∀ field ∈ fields, Encodable levels field.2
  | _ + 1, _ => True

/-- Increasing identifiers that all exceed the last one seen. -/
def IncreasingFrom (previous : Option UInt32) (fields : List (FieldId × CanonicalValue)) : Prop :=
  (∀ id ∈ previous, ∀ field ∈ fields, id < field.1.get) ∧ Increasing fields

theorem increasingFrom_cons {field : FieldId × CanonicalValue}
    {rest : List (FieldId × CanonicalValue)} : IncreasingFrom previous (field :: rest) ↔
      follows previous field.1.get = true ∧ IncreasingFrom (some field.1.get) rest := by
  unfold IncreasingFrom Increasing
  rw [pairwise_cons, follows_iff]
  constructor
  · rintro ⟨above, below, increasing⟩
    exact ⟨fun id seen => above id seen field mem_cons_self,
      fun id seen other member => by cases seen; exact below other member, increasing⟩
  · rintro ⟨above, below, increasing⟩
    refine ⟨fun id seen other member => ?_, below _ rfl, increasing⟩
    rcases mem_cons.mp member with rfl | later
    · exact above id seen
    · exact UInt32.lt_trans (above id seen) (below _ rfl other later)

theorem increasingFrom_none : IncreasingFrom none fields ↔ Increasing fields := by
  simp [IncreasingFrom]

variable {levels : Nat}

/-- A value that fits is nested less deep than the levels left. -/
theorem Encodable.nestingDepth_lt (fits : Encodable levels value) :
    value.nestingDepth < levels := by
  induction levels generalizing value with
  | zero => exact absurd fits (by simp [Encodable])
  | succ levels ih =>
    cases value with
    | list values =>
      rw [nestingDepth, Nat.lt_succ_iff, childDepth_le]
      exact fun value member => ih (fits.2 value member)
    | record fields =>
      rw [nestingDepth, Nat.lt_succ_iff, fieldDepth_eq, childDepth_le]
      intro value member
      obtain ⟨field, present, rfl⟩ := mem_map.mp member
      exact ih (fits.2.2 field present)
    | _ => simp [nestingDepth]

/-- Values that fit could have been formed by the checked constructors. -/
theorem Encodable.constructed (within : levels ≤ maxNestingDepth + 1)
    (fits : Encodable levels value) : Constructed value := by
  induction levels generalizing value with
  | zero => exact absurd fits (by simp [Encodable])
  | succ levels ih =>
    cases value with
    | list values =>
      have shallow := fits.nestingDepth_lt
      rw [nestingDepth] at shallow
      apply Constructed.list (fun value member => ih (by omega) (fits.2 value member))
      exact CanonicalList.new_eq_ok.mpr ⟨fits.1, by omega, rfl⟩
    | record fields =>
      have shallow := fits.nestingDepth_lt
      rw [nestingDepth] at shallow
      apply Constructed.record (fun field member => ih (by omega) (fits.2.2 field member))
      exact CanonicalRecord.new_of_increasing fits.1 fits.2.1 (by omega)
    | _ => constructor

end Document

variable {bytes : Bytes} {α : Type} {admitted : CanonicalValue → Prop}

section Encoding

/-- An encoder step appends the bytes, if its condition holds and they fit the document. -/
def Writes (encoder : Encoder Unit) (condition : Prop) (bytes : Bytes) : Prop :=
  ∀ output result, output.length ≤ maxCanonicalDocumentBytes →
    (encoder output = .ok ((), result) ↔ condition ∧ result = output ++ bytes ∧
      result.length ≤ maxCanonicalDocumentBytes)

theorem writes_write (bytes : Bytes) : Writes (write bytes) True bytes := by
  intro output result _
  unfold write
  constructor
  · intro written
    split at written
    · next room =>
      cases written
      exact ⟨trivial, rfl, by simpa using room⟩
    · cases written
  · rintro ⟨_, rfl, room⟩
    rw [if_pos (by simpa using room)]

theorem writes_check {condition : Prop} [Decidable condition] {reason : CanonicalCodecError} :
    Writes (check (require condition reason)) condition [] := by
  intro output result bounded
  rw [check_eq_ok, require_eq_ok, append_nil]
  constructor
  · rintro ⟨holds, rfl⟩
    exact ⟨holds, rfl, bounded⟩
  · rintro ⟨holds, rfl, _⟩
    exact ⟨holds, rfl⟩

theorem writes_nothing : Writes (pure ()) True [] := by
  intro output result bounded
  rw [read_pure_eq_ok, append_nil]
  constructor
  · rintro ⟨_, rfl⟩
    exact ⟨trivial, rfl, bounded⟩
  · rintro ⟨_, rfl, _⟩
    exact ⟨rfl, rfl⟩

variable {p q : Prop}

theorem Writes.seq {first second : Encoder Unit} {front back : Bytes} (head : Writes first p front)
    (tail : Writes second q back) : Writes (do first; second) (p ∧ q) (front ++ back) := by
  intro output result bounded
  rw [read_bind_eq_ok]
  constructor
  · rintro ⟨⟨⟩, middle, written, later⟩
    obtain ⟨holds, rfl, room⟩ := (head output middle bounded).mp written
    obtain ⟨alsoHolds, rfl, enough⟩ := (tail _ result room).mp later
    exact ⟨⟨holds, alsoHolds⟩, append_assoc .., enough⟩
  · rintro ⟨⟨holds, alsoHolds⟩, rfl, enough⟩
    have room : (output ++ front).length ≤ maxCanonicalDocumentBytes := by
      simp only [length_append] at enough ⊢
      omega
    exact ⟨(), output ++ front, (head _ _ bounded).mpr ⟨holds, rfl, room⟩,
      (tail _ _ room).mpr ⟨alsoHolds, (append_assoc ..).symm, enough⟩⟩

theorem Writes.congr {encoder : Encoder Unit} {whole : Bytes} (writes : Writes encoder p bytes)
    (same : p ↔ q) (equal : bytes = whole) : Writes encoder q whole := by
  intro output result bounded
  rw [writes output result bounded, same, equal]

theorem writes_forM {step : α → Encoder Unit} {admitted : α → Prop} {encode : α → Bytes}
    {items : List α} (each : ∀ item ∈ items, Writes (step item) (admitted item) (encode item)) :
    Writes (items.forM step) (∀ item ∈ items, admitted item) (items.flatMap encode) := by
  induction items with
  | nil => exact writes_nothing.congr (by simp) rfl
  | cons item rest ih =>
    have head := each item mem_cons_self
    have tail := ih fun other member => each other (mem_cons_of_mem item member)
    exact (head.seq tail).congr (by simp) rfl

theorem writes_encodeFields {encode : CanonicalValue → Encoder Unit}
    (each : ∀ field ∈ fields, Writes (encode field.2) (admitted field.2) (document field.2))
    (previous : Option UInt32) : Writes (encodeFields encode previous fields)
      (IncreasingFrom previous fields ∧ ∀ field ∈ fields, admitted field.2)
      (fields.flatMap fieldDocument) := by
  induction fields generalizing previous with
  | nil => exact writes_nothing.congr (by simp [IncreasingFrom, Increasing]) rfl
  | cons field rest ih =>
    obtain ⟨fieldId, value⟩ := field
    have head := each (fieldId, value) mem_cons_self
    have tail := ih (fun other member => each other (mem_cons_of_mem _ member))
      (some fieldId.get)
    have order : Writes (check (require (follows previous fieldId.get = true)
        nonCanonicalRecordOrder)) (follows previous fieldId.get = true) [] := writes_check
    apply (order.seq ((writes_write (u32ToBeBytes fieldId.get)).seq (head.seq tail))).congr
    · rw [increasingFrom_cons, forall_mem_cons]
      tauto
    · simp [fieldDocument]

theorem writes_encodeDecimal (value : Decimal) :
    Writes (encodeDecimal value) True (decimalBytes value) :=
  ((writes_write _).seq (writes_write _)).congr (by simp) rfl

theorem writes_encodeBoundedBytes (bytes : Bytes) (kind : BoundedKind) :
    Writes (encodeBoundedBytes bytes kind) (bytes.length ≤ kind.maximum) (boundedBytes bytes) :=
  (writes_check.seq ((writes_write _).seq (writes_write _))).congr (by simp) rfl

theorem writes_encodeValue (levels : Nat) (value : CanonicalValue) :
    Writes (encodeValue levels value) (Encodable levels value) (document value) := by
  induction levels generalizing value with
  | zero =>
    intro output result _
    simp [encodeValue, check, Except.map, Encodable]
  | succ levels ih =>
    have tagged : ∀ {tag : UInt8} {encoder : Encoder Unit} {p : Prop} {bytes : Bytes},
        Writes encoder p bytes → Writes (do write [canonicalValueVersion]; write [tag]; encoder) p
          (canonicalValueVersion :: tag :: bytes) := fun writes =>
      ((writes_write _).seq ((writes_write _).seq writes)).congr (by simp) rfl
    cases value with
    | null | bool value =>
      exact ((writes_write _).seq (writes_write _)).congr (by simp [Encodable]) rfl
    | i64 value | u64 value | date value | uuid value =>
      exact (tagged (writes_write _)).congr (by simp [Encodable]) rfl
    | decimal value => exact (tagged (writes_encodeDecimal value)).congr (by simp [Encodable]) rfl
    | money value =>
      exact (tagged ((writes_write _).seq (writes_encodeDecimal value.amount))).congr
        (by simp [Encodable]) rfl
    | string value =>
      exact (tagged (writes_encodeBoundedBytes _ .string)).congr
        (by simpa [Encodable, BoundedKind.maximum] using value.bounded) rfl
    | bytes value =>
      exact (tagged (writes_encodeBoundedBytes _ .bytes)).congr
        (by simpa [Encodable, BoundedKind.maximum] using value.bounded) rfl
    | timestamp value | enum typeId variantId =>
      exact (tagged ((writes_write _).seq (writes_write _))).congr (by simp [Encodable]) rfl
    | list values =>
      have children : Writes (values.forM (encodeValue levels))
          (∀ value ∈ values, Encodable levels value) (values.flatMap document) :=
        writes_forM fun value _ => ih value
      exact ((writes_write _).seq (writes_check.seq ((writes_write _).seq
        ((writes_write _).seq children)))).congr (by simp [Encodable])
        (by simp [document, tagOf, payload, listPayload_eq])
    | record fields =>
      have children : Writes (encodeFields (encodeValue levels) none fields)
          (IncreasingFrom none fields ∧ ∀ field ∈ fields, Encodable levels field.2)
          (fields.flatMap fieldDocument) :=
        writes_encodeFields (fun field _ => ih field.2) none
      exact ((writes_write _).seq (writes_check.seq ((writes_write _).seq
        ((writes_write _).seq children)))).congr (by simp [Encodable, increasingFrom_none])
        (by simp [document, tagOf, payload, recordPayload_eq])
    | vector value =>
      have components : Writes
          (value.components.forM fun component => write (u32ToBeBytes component.bits))
          (∀ component ∈ value.components, True)
          (value.components.flatMap fun component => u32ToBeBytes component.bits) :=
        writes_forM fun component _ => writes_write (u32ToBeBytes component.bits)
      exact (tagged ((writes_write _).seq components)).congr (by simp [Encodable]) rfl

/-- Encoding succeeds exactly for values that fit, with their document as the result. -/
theorem encodeCanonicalValue_eq_ok :
    encodeCanonicalValue value = .ok bytes ↔ Encodable (maxNestingDepth + 1) value ∧
      bytes = document value ∧ bytes.length ≤ maxCanonicalDocumentBytes := by
  have writes := writes_encodeValue (maxNestingDepth + 1) value [] bytes (Nat.zero_le _)
  rw [nil_append] at writes
  rw [← writes, encodeCanonicalValue, map_eq_ok]
  constructor
  · rintro ⟨⟨⟨⟩, result⟩, encoded, rfl⟩
    exact encoded
  · intro encoded
    exact ⟨((), bytes), encoded, rfl⟩

end Encoding

section Decoding

variable {input rest : Bytes}

theorem readU8_eq_ok {byte : UInt8} : readU8 input = .ok (byte, rest) ↔ input = byte :: rest := by
  cases input with
  | nil => simp [readU8]
  | cons first others => simp [readU8]

theorem readU32_eq_ok {value : UInt32} :
    readU32 input = .ok (value, rest) ↔ input = u32ToBeBytes value ++ rest := by
  simp only [readU32, readArray, read_bind_eq_ok, read_pure_eq_ok, array_eq_ok, u32FromBeBytes_eq]
  constructor
  · rintro ⟨bytes, middle, whole, same, rfl⟩
    rw [whole, same]
  · intro whole
    exact ⟨⟨u32ToBeBytes value, length_beBytes _ _⟩, rest, whole, rfl, rfl⟩

theorem decodeDecimal_exact : Exact decodeDecimal (fun _ => True) decimalBytes := by
  intro input value rest
  simp only [decodeDecimal, readArray, read_bind_eq_ok, readU8_eq_ok, array_eq_ok, check_eq_ok,
    mapError_eq_ok, DecimalSpec.new_eq_ok, Decimal.new_eq_ok, true_and]
  constructor
  · rintro ⟨precision, _, rfl, scale, _, rfl, bytes, _, rfl, spec, _, ⟨⟨rfl, rfl⟩, rfl⟩,
      ⟨rfl, same⟩, rfl⟩
    have back := twosComplement_signedValue bytes.toList
    rw [List.Vector.toList_length] at back
    rw [decimalBytes, same, back]
    rfl
  · rintro rfl
    refine ⟨_, _, rfl, _, _, rfl, ⟨twosComplement 16 value.coefficient, by simp⟩, rest, rfl,
      value.spec, rest, ⟨⟨rfl, rfl⟩, rfl⟩, ⟨rfl, ?_⟩, rfl⟩
    exact ((signedValue_twosComplement 16 value.coefficient).trans value.coefficient_fits).symm

theorem decodeBoundedBytes_eq_ok (kind : BoundedKind) (width : kind.maximum < UInt32.size) :
    decodeBoundedBytes kind input = .ok (bytes, rest) ↔
      bytes.length ≤ kind.maximum ∧ input = boundedBytes bytes ++ rest := by
  simp only [decodeBoundedBytes, read_bind_eq_ok, readU32_eq_ok, check_eq_ok,
    require_eq_ok, take_eq_ok]
  constructor
  · rintro ⟨length, _, rfl, _, _, ⟨bounded, rfl⟩, counted, rfl⟩
    rw [boundedBytes, counted, append_assoc]
    exact ⟨bounded, rfl⟩
  · rintro ⟨bounded, rfl⟩
    have same : (UInt32.ofNat bytes.length).toNat = bytes.length :=
      UInt32.toNat_ofNat_of_lt' (by omega)
    refine ⟨UInt32.ofNat bytes.length, bytes ++ rest, ?_, ⟨⟩, _, ⟨by omega, rfl⟩, same.symm, rfl⟩
    rw [boundedBytes, u32ToBeBytes, same, append_assoc]

variable {count : Nat}

theorem readCollectionCount_eq_ok (kind : CollectionKind) (width : kind.maximum < UInt32.size) :
    readCollectionCount kind input = .ok (count, rest) ↔
      count ≤ kind.maximum ∧ input = beBytes 4 count ++ rest := by
  simp only [readCollectionCount, read_bind_eq_ok, readU32_eq_ok, check_eq_ok, require_eq_ok,
    read_pure_eq_ok]
  constructor
  · rintro ⟨raw, _, rfl, _, _, ⟨bounded, rfl⟩, rfl, rfl⟩
    exact ⟨bounded, rfl⟩
  · rintro ⟨bounded, rfl⟩
    have same : (UInt32.ofNat count).toNat = count := UInt32.toNat_ofNat_of_lt' (by omega)
    exact ⟨UInt32.ofNat count, rest,
      by rw [u32ToBeBytes, same], ⟨⟩, rest, ⟨by omega, rfl⟩, same, rfl⟩

variable {fields : List (FieldId × CanonicalValue)}

theorem decodeFields_eq_ok {decode : Decoder CanonicalValue}
    (exact : Exact decode admitted document) :
    decodeFields decode count previous input = .ok (fields, rest) ↔ fields.length = count ∧
      IncreasingFrom previous fields ∧ (∀ field ∈ fields, admitted field.2) ∧
      input = fields.flatMap fieldDocument ++ rest := by
  induction count generalizing input rest previous fields with
  | zero =>
    rw [decodeFields, read_pure_eq_ok, eq_comm, length_eq_zero_iff]
    refine and_congr_right ?_
    rintro rfl
    simp [IncreasingFrom, Increasing]
  | succ count ih =>
    simp only [decodeFields, read_bind_eq_ok, readU32_eq_ok, check_eq_ok, require_eq_ok, okOr_eq_ok,
      NonZeroU32.new_eq_some, read_pure_eq_ok, exact _, ih]
    constructor
    · rintro ⟨_, _, rfl, _, _, ⟨above, rfl⟩, fieldId, _, ⟨rfl, rfl⟩, value, _,
        ⟨fits, rfl⟩, others, _, ⟨rfl, increasing, all, rfl⟩, rfl, rfl⟩
      refine ⟨rfl, increasingFrom_cons.mpr ⟨above, increasing⟩, ?_, ?_⟩
      · exact forall_mem_cons.mpr ⟨fits, all⟩
      · simp [fieldDocument]
    · rintro ⟨counted, increasing, all, rfl⟩
      obtain ⟨⟨fieldId, value⟩, others, rfl⟩ := exists_cons_of_length_eq_add_one counted
      obtain ⟨above, later⟩ := increasingFrom_cons.mp increasing
      obtain ⟨fits, remaining⟩ := forall_mem_cons.mp all
      exact ⟨fieldId.get, document value ++ (others.flatMap fieldDocument ++ rest),
        by simp [fieldDocument], ⟨⟩, _, ⟨above, rfl⟩, fieldId, _, ⟨rfl, rfl⟩, value, _, ⟨fits, rfl⟩,
        others, _, ⟨by simpa using counted, later, remaining, rfl⟩, rfl, rfl⟩

theorem decodeComponents_eq_ok {index : Nat} {components : List F32} :
    decodeComponents count index input = .ok (components, rest) ↔ components.length = count ∧
      components.all F32.isCanonical = true ∧
      input = components.flatMap (fun component => u32ToBeBytes component.bits) ++ rest := by
  induction count generalizing input rest index components with
  | zero =>
    rw [decodeComponents, read_pure_eq_ok, eq_comm, length_eq_zero_iff]
    refine and_congr_right ?_
    rintro rfl
    simp
  | succ count ih =>
    simp only [decodeComponents, read_bind_eq_ok, readU32_eq_ok, check_eq_ok, require_eq_ok,
      read_pure_eq_ok, ih]
    constructor
    · rintro ⟨bits, _, rfl, _, _, ⟨canonical, rfl⟩, others, _, ⟨rfl, all, rfl⟩, rfl, rfl⟩
      exact ⟨rfl, by rw [all_cons, canonical, all]; rfl, by simp⟩
    · rintro ⟨counted, all, rfl⟩
      obtain ⟨component, others, rfl⟩ := exists_cons_of_length_eq_add_one counted
      rw [all_cons, Bool.and_eq_true] at all
      exact ⟨component.bits, _, by rw [flatMap_cons, append_assoc], ⟨⟩, _,
        ⟨all.1, rfl⟩, others, _, ⟨by simpa using counted, all.2, rfl⟩, rfl, rfl⟩

theorem decodeVector_exact : Exact decodeVector (fun _ => True) vectorBytes := by
  intro input value rest
  simp only [decodeVector, read_bind_eq_ok, readU32_eq_ok, check_eq_ok, require_eq_ok,
    mapError_eq_ok, decodeComponents_eq_ok, true_and]
  constructor
  · rintro ⟨dimension, _, rfl, _, _, ⟨positive, rfl⟩, components, _,
      ⟨counted, canonical, rfl⟩, built, rfl⟩
    have whole := CanonicalVector.new_components ⟨components, by omega, canonical⟩
    have same : value.components = components :=
      congrArg CanonicalVector.components (Except.ok.inj (built.symm.trans whole))
    rw [vectorBytes, same, counted, u32ToBeBytes, append_assoc]
  · rintro rfl
    have bounded := value.dimension
    have same : (UInt32.ofNat value.components.length).toNat = value.components.length := by
      apply UInt32.toNat_ofNat_of_lt'
      have small : maxVectorDimension < UInt32.size := by decide
      omega
    refine ⟨UInt32.ofNat value.components.length, _, ?_, ⟨⟩, _, ⟨by omega, rfl⟩,
      value.components, _, ⟨same.symm, value.canonical, rfl⟩, value.new_components, rfl⟩
    rw [vectorBytes, u32ToBeBytes, same, append_assoc]

theorem decodeBool_eq_ok {value : Bool} :
    decodeBool input = .ok (value, rest) ↔ input = (if value then 1 else 0) :: rest := by
  simp only [decodeBool, read_bind_eq_ok, readU8_eq_ok, check_eq_ok]
  constructor
  · rintro ⟨byte, _, rfl, decided, rfl⟩
    split at decided
    · next zero => cases decided; rw [zero]; rfl
    · split at decided
      · next one => cases decided; rw [one]; rfl
      · cases decided
  · rintro rfl
    refine ⟨_, rest, rfl, ?_, rfl⟩
    cases value <;> rfl

theorem decodeMoney_exact : Exact decodeMoney (fun _ => True)
    (fun value => value.currency.asBytes.toList ++ decimalBytes value.amount) := by
  intro input value rest
  simp only [decodeMoney, readArray, read_bind_eq_ok, array_eq_ok, check_eq_ok, require_eq_ok,
    mapError_eq_ok, CurrencyCode.new_eq_ok, decodeDecimal_exact _, read_pure_eq_ok, true_and]
  constructor
  · rintro ⟨bytes, _, rfl, _, _, ⟨_, rfl⟩, currency, _, ⟨same, rfl⟩, amount, _, rfl, rfl, rfl⟩
    rw [← same, append_assoc]
  · rintro rfl
    exact ⟨value.currency.asBytes, _, by rw [append_assoc], ⟨⟩, _,
      ⟨value.currency.isUtf8, rfl⟩, value.currency, _, ⟨rfl, rfl⟩, value.amount, rest,
      rfl, rfl, rfl⟩

theorem decodeString_exact : Exact decodeString (fun _ => True)
    (fun value => boundedBytes (utf8Bytes value.text)) := by
  intro input value rest
  simp only [decodeString, read_bind_eq_ok, check_eq_ok, okOr_eq_ok, mapError_eq_ok,
    fromUtf8_eq_some, CanonicalString.new_eq_ok, true_and,
    decodeBoundedBytes_eq_ok .string (by decide)]
  constructor
  · rintro ⟨bytes, _, ⟨_, rfl⟩, text, _, ⟨rfl, rfl⟩, rfl, rfl⟩
    rfl
  · rintro rfl
    exact ⟨utf8Bytes value.text, rest, ⟨value.bounded, rfl⟩, value.text, rest, ⟨rfl, rfl⟩, rfl, rfl⟩

theorem decodeBytes_exact :
    Exact decodeBytes (fun _ => True) (fun value => boundedBytes value.asBytes) := by
  intro input value rest
  simp only [decodeBytes, read_bind_eq_ok, check_eq_ok, mapError_eq_ok, CanonicalBytes.new_eq_ok,
    true_and, decodeBoundedBytes_eq_ok .bytes (by decide)]
  constructor
  · rintro ⟨bytes, _, ⟨_, rfl⟩, rfl, rfl⟩
    rfl
  · rintro rfl
    exact ⟨value.asBytes, rest, ⟨value.bounded, rfl⟩, rfl, rfl⟩

theorem decodeTimestamp_exact : Exact decodeTimestamp (fun _ => True)
    (fun value => i64ToBeBytes value.seconds ++ u32ToBeBytes value.nanoseconds) := by
  intro input value rest
  simp only [decodeTimestamp, readArray, read_bind_eq_ok, array_eq_ok, readU32_eq_ok, check_eq_ok,
    mapError_eq_ok, Timestamp.new_eq_ok, eq_comm (a := value.seconds), i64FromBeBytes_eq, true_and]
  constructor
  · rintro ⟨seconds, _, rfl, nanos, _, rfl, ⟨same, rfl⟩, rfl⟩
    rw [same, append_assoc]
  · rintro rfl
    exact ⟨⟨i64ToBeBytes value.seconds, length_twosComplement 8 _⟩, _, by rw [append_assoc]; rfl,
      value.nanoseconds, rest, rfl, ⟨rfl, rfl⟩, rfl⟩

theorem decodeEnum_exact : Exact decodeEnum (fun _ => True)
    (fun ids => u32ToBeBytes ids.1.get ++ u32ToBeBytes ids.2.get) := by
  intro input value rest
  simp only [decodeEnum, read_bind_eq_ok, readU32_eq_ok, check_eq_ok, okOr_eq_ok,
    NonZeroU32.new_eq_some, read_pure_eq_ok, true_and]
  constructor
  · rintro ⟨_, _, rfl, typeId, _, ⟨rfl, rfl⟩, _, _, rfl, variantId, _, ⟨rfl, rfl⟩, rfl, rfl⟩
    rw [append_assoc]
  · rintro rfl
    exact ⟨_, _, by rw [append_assoc], value.1, _, ⟨rfl, rfl⟩, _, _, rfl, value.2, rest,
      ⟨rfl, rfl⟩, rfl, rfl⟩

section Collections

variable {decode : Decoder CanonicalValue} {admitted : CanonicalValue → Prop}

/-- The final depth check of a list passes when its items are nested less deep than the limit. -/
theorem decodeList_eq_ok (exact : Exact decode admitted document)
    (shallow : ∀ value, admitted value → value.nestingDepth < maxNestingDepth)
    {values : List CanonicalValue} : decodeList decode input = .ok (values, rest) ↔
      values.length ≤ maxListEntries ∧ (∀ value ∈ values, admitted value) ∧
      input = beBytes 4 values.length ++ values.flatMap document ++ rest := by
  simp only [decodeList, read_bind_eq_ok, check_eq_ok, mapError_eq_ok, CanonicalList.new_eq_ok,
    readCollectionCount_eq_ok .list (by decide), exact.repeated, childDepth_le]
  constructor
  · rintro ⟨_, _, ⟨bounded, rfl⟩, values, _, ⟨rfl, all, rfl⟩, ⟨_, _, rfl⟩, rfl⟩
    exact ⟨bounded, all, by rw [append_assoc]⟩
  · rintro ⟨bounded, all, rfl⟩
    exact ⟨values.length, _, ⟨bounded, by rw [append_assoc]⟩, values, rest, ⟨rfl, all, rfl⟩,
      ⟨bounded, fun value member => shallow value (all value member), rfl⟩, rfl⟩

theorem decodeRecord_eq_ok (exact : Exact decode admitted document) :
    decodeRecord decode input = .ok (fields, rest) ↔
      fields.length ≤ maxRecordFields ∧ Increasing fields ∧ (∀ field ∈ fields, admitted field.2) ∧
      input = beBytes 4 fields.length ++ fields.flatMap fieldDocument ++ rest := by
  simp only [decodeRecord, read_bind_eq_ok, readCollectionCount_eq_ok .record (by decide),
    decodeFields_eq_ok exact, increasingFrom_none]
  constructor
  · rintro ⟨_, _, ⟨bounded, rfl⟩, rfl, increasing, all, rfl⟩
    exact ⟨bounded, increasing, all, by rw [append_assoc]⟩
  · rintro ⟨bounded, increasing, all, rfl⟩
    exact ⟨fields.length, _, ⟨bounded, by rw [append_assoc]⟩, rfl, increasing, all, rfl⟩

end Collections

section Payloads

variable {levels : Nat} {tag : UInt8} {value : CanonicalValue}

/-- The input starts with the payload of a value that has the tag and fits. -/
def Payload (levels : Nat) (tag : UInt8) (input : Bytes) (value : CanonicalValue)
    (rest : Bytes) : Prop :=
  tag = tagOf value ∧ Encodable (levels + 1) value ∧ input = payload value ++ rest

/-- One branch on the tag: what it reads is a payload of its tag, or the branches after it read
one. -/
theorem payload_of_branch {branchTag : UInt8} {decoder : Decoder α} {view : α → CanonicalValue}
    {others : Decoder CanonicalValue}
    (here :
      ∀ found, decoder input = .ok (found, rest) → Payload levels branchTag input (view found) rest)
    (later : others input = .ok (value, rest) → Payload levels tag input value rest)
    (decoded : (if tag = branchTag then view <$> decoder else others) input = .ok (value, rest)) :
    Payload levels tag input value rest := by
  split at decoded
  · next same =>
    obtain ⟨found, read, rfl⟩ := read_map_eq_ok.mp decoded
    exact same ▸ here found read
  · exact later decoded

section

variable (within : levels ≤ maxNestingDepth)
  (exact : Exact (decodeValue levels) (Encodable levels) document)

include within exact

theorem decodePayload_sound
    (decoded : decodePayload (decodeValue levels) tag input = .ok (value, rest)) :
    Payload levels tag input value rest := by
  have shallow : ∀ value, Encodable levels value → value.nestingDepth < maxNestingDepth :=
    fun value fits => Nat.lt_of_lt_of_le fits.nestingDepth_lt within
  unfold decodePayload at decoded
  by_cases isNull : tag = tagNull
  · rw [if_pos isNull] at decoded
    obtain ⟨rfl, rfl⟩ := read_pure_eq_ok.mp decoded
    exact ⟨isNull, trivial, rfl⟩
  rw [if_neg isNull] at decoded
  revert decoded
  refine payload_of_branch (fun _ read => ⟨rfl, trivial, decodeBool_eq_ok.mp read⟩) ?_
  refine payload_of_branch (fun _ read => ⟨rfl, trivial,
    (array_eq_ok.mp read).trans (congrArg (· ++ rest) (i64FromBeBytes_eq.mp rfl))⟩) ?_
  refine payload_of_branch (fun _ read => ⟨rfl, trivial,
    (array_eq_ok.mp read).trans (congrArg (· ++ rest) (u64FromBeBytes_eq.mp rfl))⟩) ?_
  refine payload_of_branch (fun _ read =>
    ⟨rfl, trivial, ((decodeDecimal_exact _ _ _).mp read).2⟩) ?_
  refine payload_of_branch (fun _ read => ⟨rfl, trivial, ((decodeMoney_exact _ _ _).mp read).2⟩) ?_
  refine payload_of_branch (fun _ read => ⟨rfl, trivial, ((decodeString_exact _ _ _).mp read).2⟩) ?_
  refine payload_of_branch (fun _ read => ⟨rfl, trivial, ((decodeBytes_exact _ _ _).mp read).2⟩) ?_
  refine payload_of_branch (fun _ read =>
    ⟨rfl, trivial, ((decodeTimestamp_exact _ _ _).mp read).2⟩) ?_
  refine payload_of_branch (fun _ read => ⟨rfl, trivial,
    (array_eq_ok.mp read).trans (congrArg (· ++ rest) (i32FromBeBytes_eq.mp rfl))⟩) ?_
  refine payload_of_branch (fun _ read => ⟨rfl, trivial, array_eq_ok.mp read⟩) ?_
  refine payload_of_branch (fun _ read => ⟨rfl, trivial, ((decodeEnum_exact _ _ _).mp read).2⟩) ?_
  refine payload_of_branch (fun values read => ?_) (payload_of_branch (fun fields read => ?_) ?_)
  · obtain ⟨bounded, all, whole⟩ := (decodeList_eq_ok exact shallow).mp read
    exact ⟨rfl, ⟨bounded, all⟩, by rw [payload, listPayload_eq, whole]⟩
  · obtain ⟨bounded, increasing, all, whole⟩ := (decodeRecord_eq_ok exact).mp read
    exact ⟨rfl, ⟨bounded, increasing, all⟩, by rw [payload, recordPayload_eq, whole]⟩
  refine payload_of_branch (fun _ read => ⟨rfl, trivial, ((decodeVector_exact _ _ _).mp read).2⟩) ?_
  intro failed
  cases (check_eq_ok.mp failed).1

theorem decodePayload_complete (fits : Encodable (levels + 1) value) :
    decodePayload (decodeValue levels) (tagOf value) (payload value ++ rest) =
      .ok (value, rest) := by
  have shallow : ∀ value, Encodable levels value → value.nestingDepth < maxNestingDepth :=
    fun value fits => Nat.lt_of_lt_of_le fits.nestingDepth_lt within
  cases value with
  | null => rfl
  | bool value => exact read_map_eq_ok.mpr ⟨value, decodeBool_eq_ok.mpr rfl, rfl⟩
  | i64 value =>
    exact read_map_eq_ok.mpr ⟨⟨i64ToBeBytes value, length_twosComplement 8 _⟩,
      array_eq_ok.mpr rfl, congrArg _ (i64FromBeBytes_eq.mpr rfl)⟩
  | u64 value =>
    exact read_map_eq_ok.mpr ⟨⟨u64ToBeBytes value, length_beBytes 8 _⟩,
      array_eq_ok.mpr rfl, congrArg _ (u64FromBeBytes_eq.mpr rfl)⟩
  | decimal value =>
    exact read_map_eq_ok.mpr ⟨value, (decodeDecimal_exact _ _ _).mpr ⟨trivial, rfl⟩, rfl⟩
  | money value =>
    exact read_map_eq_ok.mpr ⟨value, (decodeMoney_exact _ _ _).mpr ⟨trivial, rfl⟩, rfl⟩
  | string value =>
    exact read_map_eq_ok.mpr ⟨value, (decodeString_exact _ _ _).mpr ⟨trivial, rfl⟩, rfl⟩
  | bytes value =>
    exact read_map_eq_ok.mpr ⟨value, (decodeBytes_exact _ _ _).mpr ⟨trivial, rfl⟩, rfl⟩
  | timestamp value =>
    exact read_map_eq_ok.mpr ⟨value, (decodeTimestamp_exact _ _ _).mpr ⟨trivial, rfl⟩, rfl⟩
  | date value =>
    exact read_map_eq_ok.mpr ⟨⟨i32ToBeBytes value.daysSinceUnixEpoch, length_twosComplement 4 _⟩,
      array_eq_ok.mpr rfl, congrArg (fun days => CanonicalValue.date ⟨days⟩)
        (i32FromBeBytes_eq.mpr rfl)⟩
  | uuid value => exact read_map_eq_ok.mpr ⟨value, array_eq_ok.mpr rfl, rfl⟩
  | enum typeId variantId =>
    exact read_map_eq_ok.mpr ⟨(typeId, variantId), (decodeEnum_exact _ _ _).mpr ⟨trivial, rfl⟩, rfl⟩
  | list values =>
    refine read_map_eq_ok.mpr
      ⟨values, (decodeList_eq_ok exact shallow).mpr ⟨fits.1, fits.2, ?_⟩, rfl⟩
    rw [payload, listPayload_eq]
  | record fields =>
    refine read_map_eq_ok.mpr ⟨fields, (decodeRecord_eq_ok exact).mpr
      ⟨fits.1, fits.2.1, fits.2.2, ?_⟩, rfl⟩
    rw [payload, recordPayload_eq]
  | vector value =>
    exact read_map_eq_ok.mpr ⟨value, (decodeVector_exact _ _ _).mpr ⟨trivial, rfl⟩, rfl⟩

end

end Payloads

/-- The decoder accepts exactly the documents of the values that fit. -/
theorem decodeValue_exact (levels : Nat) (within : levels ≤ maxNestingDepth + 1) :
    Exact (decodeValue levels) (Encodable levels) document := by
  induction levels with
  | zero =>
    intro input value rest
    simp [decodeValue, check, Except.map, Encodable]
  | succ levels ih =>
    have exact := ih (by omega)
    intro input value rest
    simp only [decodeValue, read_bind_eq_ok, readU8_eq_ok, check_eq_ok, require_eq_ok]
    constructor
    · rintro ⟨_, _, rfl, _, _, ⟨rfl, rfl⟩, tag, _, rfl, decoded⟩
      obtain ⟨rfl, fits, rfl⟩ := decodePayload_sound (by omega) exact decoded
      exact ⟨fits, rfl⟩
    · rintro ⟨fits, rfl⟩
      exact ⟨canonicalValueVersion, _, rfl, ⟨⟩, _, ⟨rfl, rfl⟩, tagOf value, _, rfl,
        decodePayload_complete (by omega) exact fits⟩

theorem decodeCanonicalValue_eq_ok :
    decodeCanonicalValue bytes = .ok value ↔ Encodable (maxNestingDepth + 1) value ∧
      bytes = document value ∧ bytes.length ≤ maxCanonicalDocumentBytes := by
  have exact := decodeValue_exact (maxNestingDepth + 1) (Nat.le_refl _)
  unfold decodeCanonicalValue
  constructor
  · intro decoded
    obtain ⟨_, bounded, decoded⟩ := bind_eq_ok.mp decoded
    obtain ⟨⟨found, rest⟩, read, decoded⟩ := bind_eq_ok.mp decoded
    obtain ⟨_, nothing, done⟩ := bind_eq_ok.mp decoded
    cases done
    rw [require_eq_ok] at bounded nothing
    obtain ⟨fits, whole⟩ := (exact _ _ _).mp read
    rw [nothing, append_nil] at whole
    exact ⟨fits, whole, bounded⟩
  · rintro ⟨fits, rfl, bounded⟩
    have read := (exact (document value) value []).mpr ⟨fits, (append_nil _).symm⟩
    rw [require_pos bounded, ok_bind, read, ok_bind]
    rfl

end Decoding

/-- What is accepted could have been formed by the checked constructors. -/
theorem decodeCanonicalValue_constructed (decoded : decodeCanonicalValue bytes = .ok value) :
    Constructed value :=
  (decodeCanonicalValue_eq_ok.mp decoded).1.constructed (Nat.le_refl _)

theorem decodeCanonicalValue_constructed_list :
    decodeCanonicalValue (document (.list [.null])) = .ok (.list [.null]) ∧
      Constructed (.list [.null]) :=
  ⟨rfl, @decodeCanonicalValue_constructed _ (document (.list [.null])) rfl⟩

/-- Encoding and decoding are inverse to each other on all values, constructed or not, and on
all byte strings. A value has one document, and no document continues another one. -/
theorem canonical_codec_bijective :
    (∀ value bytes, encodeCanonicalValue value = .ok bytes →
      decodeCanonicalValue bytes = .ok value) ∧
    (∀ bytes value, decodeCanonicalValue bytes = .ok value →
      encodeCanonicalValue value = .ok bytes) ∧
    (∀ left right value, decodeCanonicalValue left = .ok value →
      decodeCanonicalValue right = .ok value → left = right) ∧
    (∀ short rest value other, decodeCanonicalValue short = .ok value →
      decodeCanonicalValue (short ++ rest) = .ok other → rest = []) := by
  refine ⟨?_, ?_, ?_, ?_⟩
  · intro value bytes encoded
    exact decodeCanonicalValue_eq_ok.mpr (encodeCanonicalValue_eq_ok.mp encoded)
  · intro bytes value decoded
    exact encodeCanonicalValue_eq_ok.mpr (decodeCanonicalValue_eq_ok.mp decoded)
  · intro left right value first second
    rw [(decodeCanonicalValue_eq_ok.mp first).2.1, (decodeCanonicalValue_eq_ok.mp second).2.1]
  · intro short rest value other first second
    have exact := decodeValue_exact (maxNestingDepth + 1) (Nat.le_refl _)
    obtain ⟨fits, rfl, _⟩ := decodeCanonicalValue_eq_ok.mp first
    obtain ⟨otherFits, whole, _⟩ := decodeCanonicalValue_eq_ok.mp second
    have once := (exact (document value ++ rest) value rest).mpr ⟨fits, rfl⟩
    have again := (exact (document value ++ rest) other []).mpr ⟨otherFits, by simpa using whole⟩
    have same := Except.ok.inj (once.symm.trans again)
    exact congrArg Prod.snd same

/-- A record with a list and an absent value. -/
def sampleValue : CanonicalValue :=
  .record [(⟨3, by decide⟩, .list [.bool true, .i64 (-1)]), (⟨7, by decide⟩, .null)]

theorem canonical_codec_sample :
    ∃ bytes, encodeCanonicalValue sampleValue = .ok bytes ∧
      decodeCanonicalValue bytes = .ok sampleValue := by
  have succeeds : (encodeCanonicalValue sampleValue).isOk = true := by decide +kernel
  obtain ⟨bytes, encoded⟩ := ok_of_isOk succeeds
  exact ⟨bytes, encoded, canonical_codec_bijective.1 sampleValue bytes encoded⟩

end CanonicalCodec
