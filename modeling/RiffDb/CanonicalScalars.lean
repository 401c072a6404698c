import RiffDb.ByteWire
import RiffDb.CheckedCode

/-!
# Canonical scalar values

The checked scalars of canonical documents and durable keys. What a constructor refuses cannot be
formed: a zero identifier, a coefficient beyond its precision, a vector component that is not
finite.

Single precision numbers are their bit patterns; on the finite ones without negative zero, numeric
and bitwise equality agree.
-/

namespace CanonicalScalars

open ByteWire CheckedCode

/-- A nonzero 32-bit identifier. -/
@[ext] structure NonZeroU32 where
  get : UInt32
  nonzero : get ≠ 0
deriving DecidableEq

namespace NonZeroU32

/-- A literal identifier. -/
def lit (value : UInt32) (valid :
    Nat.blt 0 value.toNat = true := by exact Eq.refl true) : NonZeroU32 :=
  ⟨value, fun zero => absurd (Nat.blt_eq.mp valid) (by simp [zero])⟩

def new (value : UInt32) : Option NonZeroU32 :=
  if nonzero : value ≠ 0 then some ⟨value, nonzero⟩ else none

theorem new_eq_some {raw : UInt32} {value : NonZeroU32} :
    new raw = some value ↔ value.get = raw := by
  unfold new
  constructor
  · intro found
    split at found
    · cases found; rfl
    · cases found
  · rintro rfl
    rw [dif_pos value.nonzero]

end NonZeroU32

abbrev FieldId := NonZeroU32

abbrev EnumTypeId := NonZeroU32

abbrev EnumVariantId := NonZeroU32

section Words

def u32ToBeBytes (value : UInt32) : Bytes := beBytes 4 value.toNat

def u32FromBeBytes (bytes : ByteArrayOf 4) : UInt32 := UInt32.ofNat (beValue bytes.toList)

def u64ToBeBytes (value : UInt64) : Bytes := beBytes 8 value.toNat

def u64FromBeBytes (bytes : ByteArrayOf 8) : UInt64 := UInt64.ofNat (beValue bytes.toList)

def i32ToBeBytes (value : Int32) : Bytes := twosComplement 4 value.toInt

def i32FromBeBytes (bytes : ByteArrayOf 4) : Int32 := Int32.ofInt (signedValue bytes.toList)

def i64ToBeBytes (value : Int64) : Bytes := twosComplement 8 value.toInt

def i64FromBeBytes (bytes : ByteArrayOf 8) : Int64 := Int64.ofInt (signedValue bytes.toList)

theorem beValue_mod_eq {width value : Nat} {bytes : ByteArrayOf width}
    (fits : value < 256 ^ width) :
    beValue bytes.toList % 256 ^ width = value ↔ bytes.toList = beBytes width value := by
  have small := beValue_lt bytes.toList
  rw [List.Vector.toList_length] at small
  rw [Nat.mod_eq_of_lt small]
  constructor
  · rintro rfl
    simpa using (beBytes_beValue bytes.toList).symm
  · intro same
    rw [same, beValue_beBytes fits]

variable {bytes : ByteArrayOf 4}

theorem u32FromBeBytes_eq {value : UInt32} :
    u32FromBeBytes bytes = value ↔ bytes.toList = u32ToBeBytes value :=
  (UInt32.ofNat_eq_iff_mod_eq_toNat _ _).trans (beValue_mod_eq value.toNat_lt)

theorem u64FromBeBytes_eq {bytes : ByteArrayOf 8} {value : UInt64} :
    u64FromBeBytes bytes = value ↔ bytes.toList = u64ToBeBytes value :=
  (UInt64.ofNat_eq_iff_mod_eq_toNat _ _).trans (beValue_mod_eq value.toNat_lt)

/-- A number in the range of its width is the one that its bytes denote. -/
theorem signedValue_eq {width : Nat} {bytes : ByteArrayOf width} {value : Int}
    (range : value.bmod (256 ^ width) = value) :
    signedValue bytes.toList = value ↔ bytes.toList = twosComplement width value := by
  constructor
  · rintro rfl
    have exact := twosComplement_signedValue bytes.toList
    rw [List.Vector.toList_length] at exact
    exact exact.symm
  · intro same
    rw [same, signedValue_twosComplement, range]

theorem i32FromBeBytes_eq {value : Int32} :
    i32FromBeBytes bytes = value ↔ bytes.toList = i32ToBeBytes value := by
  have range : value.toInt.bmod Int32.size = value.toInt := by
    rw [← Int32.toInt_ofInt, Int32.ofInt_toInt]
  have same : (i32FromBeBytes bytes).toInt = signedValue bytes.toList := by
    rw [i32FromBeBytes, Int32.toInt_ofInt, signedValue, List.Vector.toList_length]
    exact Int.bmod_bmod
  rw [i32ToBeBytes, ← signedValue_eq range, ← same, Int32.toInt_inj]

theorem i64FromBeBytes_eq {bytes : ByteArrayOf 8} {value : Int64} :
    i64FromBeBytes bytes = value ↔ bytes.toList = i64ToBeBytes value := by
  have range : value.toInt.bmod Int64.size = value.toInt := by
    rw [← Int64.toInt_ofInt, Int64.ofInt_toInt]
  have same : (i64FromBeBytes bytes).toInt = signedValue bytes.toList := by
    rw [i64FromBeBytes, Int64.toInt_ofInt, signedValue, List.Vector.toList_length]
    exact Int.bmod_bmod
  rw [i64ToBeBytes, ← signedValue_eq range, ← same, Int64.toInt_inj]

end Words

section Time

def nanosPerSecond : UInt32 := 1000000000

theorem zero_lt_nanosPerSecond : 0 < nanosPerSecond := by decide

inductive TimestampError where
  | nanosecondsOutOfRange (nanoseconds : UInt32)
deriving DecidableEq

/-- A UTC instant without timezone or operating-system clock. -/
@[ext] structure Timestamp where
  seconds : Int64
  nanoseconds : UInt32
  inRange : nanoseconds < nanosPerSecond
deriving DecidableEq

namespace Timestamp

def new (seconds : Int64) (nanoseconds : UInt32) : Except TimestampError Timestamp :=
  if inRange : nanoseconds < nanosPerSecond then .ok ⟨seconds, nanoseconds, inRange⟩
  else .error (.nanosecondsOutOfRange nanoseconds)

theorem new_eq_ok {seconds : Int64} {nanoseconds : UInt32} {timestamp : Timestamp} :
    new seconds nanoseconds = .ok timestamp ↔
      timestamp.seconds = seconds ∧ timestamp.nanoseconds = nanoseconds := by
  unfold new
  constructor
  · intro built
    split at built
    · cases built; exact ⟨rfl, rfl⟩
    · cases built
  · rintro ⟨rfl, rfl⟩
    rw [dif_pos timestamp.inRange]

end Timestamp

/-- Signed days since the Unix epoch. -/
@[ext] structure Date where
  daysSinceUnixEpoch : Int32
deriving DecidableEq

end Time

section Decimals

def minDecimalPrecision : UInt8 := 1

def maxDecimalPrecision : UInt8 := 38

inductive DecimalSpecError where
  | precisionOutOfRange (precision : UInt8)
  | scaleExceedsPrecision (precision scale : UInt8)
deriving DecidableEq

@[ext] structure DecimalSpec where
  precision : UInt8
  scale : UInt8
  supported : minDecimalPrecision ≤ precision ∧ precision ≤ maxDecimalPrecision
  fractional : scale ≤ precision
deriving DecidableEq

variable {spec : DecimalSpec}

namespace DecimalSpec

def new (precision scale : UInt8) : Except DecimalSpecError DecimalSpec :=
  if supported : minDecimalPrecision ≤ precision ∧ precision ≤ maxDecimalPrecision then
    if fractional : scale ≤ precision then .ok ⟨precision, scale, supported, fractional⟩
    else .error (.scaleExceedsPrecision precision scale)
  else .error (.precisionOutOfRange precision)

theorem new_eq_ok {precision scale : UInt8} :
    new precision scale = .ok spec ↔ spec.precision = precision ∧ spec.scale = scale := by
  unfold new
  constructor
  · intro built
    split at built
    · split at built
      · cases built; exact ⟨rfl, rfl⟩
      · cases built
    · cases built
  · rintro ⟨rfl, rfl⟩
    rw [dif_pos spec.supported, dif_pos spec.fractional]

def coefficientLimit (spec : DecimalSpec) : Int := 10 ^ spec.precision.toNat

theorem coefficientLimit_le (spec : DecimalSpec) : spec.coefficientLimit ≤ 10 ^ 38 := by
  have precise : spec.precision.toNat ≤ 38 := by
    simpa [maxDecimalPrecision] using UInt8.le_iff_toNat_le.mp spec.supported.2
  unfold coefficientLimit
  exact_mod_cast Nat.pow_le_pow_right (by decide) precise

end DecimalSpec

inductive DecimalError where
  | coefficientOutOfRange (spec : DecimalSpec)
deriving DecidableEq

/-- A checked fixed-scale decimal. The coefficient is smaller than its 128-bit word allows. -/
@[ext] structure Decimal where
  spec : DecimalSpec
  coefficient : Int
  inRange : -spec.coefficientLimit < coefficient ∧ coefficient < spec.coefficientLimit
deriving DecidableEq

namespace Decimal

def new (spec : DecimalSpec) (coefficient : Int) : Except DecimalError Decimal :=
  if inRange : -spec.coefficientLimit < coefficient ∧ coefficient < spec.coefficientLimit then
    .ok ⟨spec, coefficient, inRange⟩
  else .error (.coefficientOutOfRange spec)

theorem new_eq_ok {coefficient : Int} {decimal : Decimal} :
    new spec coefficient = .ok decimal ↔ decimal.spec = spec ∧
      decimal.coefficient = coefficient := by
  unfold new
  constructor
  · intro built
    split at built
    · cases built; exact ⟨rfl, rfl⟩
    · cases built
  · rintro ⟨rfl, rfl⟩
    rw [dif_pos decimal.inRange]

/-- Every coefficient fits the signed 128-bit word it is written in. -/
theorem coefficient_fits (decimal : Decimal) :
    Int.bmod decimal.coefficient (256 ^ 16) = decimal.coefficient := by
  have limit := decimal.spec.coefficientLimit_le
  have range := decimal.inRange
  apply Int.bmod_eq_of_le <;> norm_num <;> omega

end Decimal

inductive CurrencyCodeError where
  | invalidLength
  | invalidCharacter
deriving DecidableEq

def isAsciiUppercase (byte : UInt8) : Bool := 0x41 ≤ byte && byte ≤ 0x5a

/-- Three uppercase letters. -/
@[ext] structure CurrencyCode where
  asBytes : ByteArrayOf 3
  uppercase : asBytes.toList.all isAsciiUppercase = true
deriving DecidableEq

namespace CurrencyCode

def new (value : Bytes) : Except CurrencyCodeError CurrencyCode := do
  let bytes ← okOr (arrayOf 3 value) .invalidLength
  if uppercase : bytes.toList.all isAsciiUppercase = true then .ok ⟨bytes, uppercase⟩
  else .error .invalidCharacter

theorem new_eq_ok {value : Bytes} {code : CurrencyCode} :
    new value = .ok code ↔ code.asBytes.toList = value := by
  unfold new
  constructor
  · intro built
    obtain ⟨bytes, found, built⟩ := bind_eq_ok.mp built
    split at built
    · cases built
      exact arrayOf_eq_some.mp (okOr_eq_ok.mp found)
    · cases built
  · rintro rfl
    rw [arrayOf_toList, okOr_some, ok_bind, dif_pos code.uppercase]

end CurrencyCode

@[ext] structure Money where
  currency : CurrencyCode
  amount : Decimal
deriving DecidableEq

end Decimals

section Vectors

def maxVectorDimension : Nat := 4096

/-- A single precision number as its bits. -/
@[ext] structure F32 where
  bits : UInt32
deriving DecidableEq

namespace F32

def isFinite (value : F32) : Bool := (value.bits >>> 23) &&& 0xff != 0xff

def negativeZero : UInt32 := 0x80000000

/-- Numeric equality with zero holds of both signed zeros. -/
def isZero (value : F32) : Bool := value.bits == 0 || value.bits == negativeZero

def isCanonical (value : F32) : Bool := value.isFinite && value.bits != negativeZero

/-- Negative zero becomes positive zero. -/
def canonicalize (value : F32) : F32 := if value.isZero then ⟨0⟩ else value

theorem canonicalize_canonical {value : F32} (canonical : value.isCanonical = true) :
    value.canonicalize = value := by
  obtain ⟨_, positive⟩ := Bool.and_eq_true_iff.mp canonical
  unfold canonicalize
  split
  · next zero =>
    simp only [isZero, Bool.or_eq_true, beq_iff_eq] at zero
    rcases zero with zero | negative
    · exact F32.ext zero.symm
    · exact absurd negative (by simpa using positive)
  · rfl

theorem canonicalize_isCanonical {value : F32} (finite : value.isFinite = true) :
    value.canonicalize.isCanonical = true := by
  unfold canonicalize
  split
  · decide
  · next nonzero =>
    simp only [isZero, Bool.or_eq_true, beq_iff_eq, not_or] at nonzero
    simp [isCanonical, finite, nonzero.2]

end F32

inductive CanonicalVectorError where
  | dimensionOutOfRange (actual maximum : Nat)
  | nonFiniteComponent (index : Nat)
deriving DecidableEq

/-- One to 4096 finite components, none of them negative zero. -/
@[ext] structure CanonicalVector where
  components : List F32
  dimension : components.length ≠ 0 ∧ components.length ≤ maxVectorDimension
  canonical : components.all F32.isCanonical = true
deriving DecidableEq

namespace CanonicalVector

/-- The first component that is not finite is reported by its index. -/
def canonicalComponents (index : Nat) : List F32 → Except CanonicalVectorError (List F32)
  | [] => .ok []
  | component :: rest => do
    require (component.isFinite = true) (.nonFiniteComponent index)
    let rest ← canonicalComponents (index + 1) rest
    .ok (component.canonicalize :: rest)

variable {components : List F32}

theorem canonicalComponents_eq_ok {index : Nat} {result : List F32}
    (built : canonicalComponents index components = .ok result) :
    result = components.map F32.canonicalize ∧ ∀ component ∈ components,
      component.isFinite = true := by
  induction components generalizing index result with
  | nil =>
    cases built
    simp
  | cons component rest ih =>
    simp only [canonicalComponents, bind_eq_ok, require_eq_ok, exists_const,
      Except.ok.injEq] at built
    obtain ⟨finite, others, found, rfl⟩ := built
    obtain ⟨rfl, allFinite⟩ := ih found
    exact ⟨rfl, List.forall_mem_cons.mpr ⟨finite, allFinite⟩⟩

/-- Components already in canonical form pass unchanged. -/
theorem canonicalComponents_of_canonical (index : Nat)
    (canonical : components.all F32.isCanonical = true) :
    canonicalComponents index components = .ok components := by
  induction components generalizing index with
  | nil => rfl
  | cons component rest ih =>
    rw [List.all_cons, Bool.and_eq_true] at canonical
    have finite : component.isFinite = true := (Bool.and_eq_true_iff.mp canonical.1).1
    rw [canonicalComponents, require_pos finite, ok_bind, ih (index + 1) canonical.2, ok_bind,
      F32.canonicalize_canonical canonical.1]

def new (components : List F32) : Except CanonicalVectorError CanonicalVector :=
  if dimension : components.length ≠ 0 ∧ components.length ≤ maxVectorDimension then
    match built : canonicalComponents 0 components with
    | .error reason => .error reason
    | .ok canonical => .ok {
        components := canonical
        dimension := by
          obtain ⟨rfl, _⟩ := canonicalComponents_eq_ok built
          simpa using dimension
        canonical := by
          obtain ⟨rfl, finite⟩ := canonicalComponents_eq_ok built
          rw [List.all_map, List.all_eq_true]
          intro component member
          exact F32.canonicalize_isCanonical (finite component member) }
  else .error (.dimensionOutOfRange components.length maxVectorDimension)

/-- Components in canonical form, in the supported number, are the vector itself. -/
theorem new_components (vector : CanonicalVector) : new vector.components = .ok vector := by
  unfold new
  rw [dif_pos vector.dimension]
  split
  · next failed =>
    rw [canonicalComponents_of_canonical 0 vector.canonical] at failed
    cases failed
  · next built =>
    rw [canonicalComponents_of_canonical 0 vector.canonical] at built
    cases built
    rfl

end CanonicalVector

end Vectors

section Texts

def maxStringBytes : Nat := 1024 * 1024

def maxBytesValueBytes : Nat := 1024 * 1024

/-- The bytes of a text; every text is valid UTF-8. -/
def utf8Bytes (text : String) : Bytes := text.toByteArray.data.toList

def fromUtf8 (bytes : Bytes) : Option String := String.fromUTF8? ⟨bytes.toArray⟩

variable {bytes : Bytes}

theorem fromUtf8_eq_some {text : String} : fromUtf8 bytes = some text ↔ utf8Bytes text = bytes := by
  unfold fromUtf8 String.fromUTF8? utf8Bytes
  constructor
  · intro found
    split at found
    · cases found; rfl
    · cases found
  · rintro rfl
    rw [dif_pos text.isValidUTF8]
    rfl

/-- Exact UTF-8 text of bounded length. -/
@[ext] structure CanonicalString where
  text : String
  bounded : (utf8Bytes text).length ≤ maxStringBytes
deriving DecidableEq

/-- Exact opaque bytes of bounded length. -/
@[ext] structure CanonicalBytes where
  asBytes : Bytes
  bounded : asBytes.length ≤ maxBytesValueBytes
deriving DecidableEq

theorem utf8EncodeChar_ascii {byte : UInt8} (ascii : byte < 0x80) :
    String.utf8EncodeChar (Char.ofNat byte.toNat) = [byte] := by
  have each : ∀ bits : BitVec 8, UInt8.ofBitVec bits < 0x80 →
      String.utf8EncodeChar (Char.ofNat (UInt8.ofBitVec bits).toNat) = [UInt8.ofBitVec bits] := by
    decide +kernel
  exact each byte.toBitVec ascii

theorem exists_text_of_ascii (ascii : ∀ byte ∈ bytes, byte < 0x80) :
    ∃ text, utf8Bytes text = bytes := by
  refine ⟨String.ofList (bytes.map fun byte => Char.ofNat byte.toNat), ?_⟩
  rw [utf8Bytes, String.toByteArray_ofList, List.utf8Encode]
  induction bytes with
  | nil => simp
  | cons byte rest ih =>
    obtain ⟨first, others⟩ := List.forall_mem_cons.mp ascii
    simp only [List.data_toByteArray, List.toList_toArray, List.map_cons, List.flatMap_cons,
      utf8EncodeChar_ascii first] at ih ⊢
    rw [ih others]
    rfl

/-- Currency letters are ASCII, so their bytes are valid text. -/
theorem CurrencyCode.isUtf8 (code : CurrencyCode) :
    (fromUtf8 code.asBytes.toList).isSome = true := by
  have ascii : ∀ byte ∈ code.asBytes.toList, byte < 0x80 := by
    intro byte member
    have letter := List.all_eq_true.mp code.uppercase byte member
    simp only [isAsciiUppercase, Bool.and_eq_true, decide_eq_true_eq] at letter
    exact UInt8.lt_of_le_of_lt letter.2 (by decide)
  obtain ⟨text, same⟩ := exists_text_of_ascii ascii
  rw [fromUtf8_eq_some.mpr same]
  rfl

end Texts

end CanonicalScalars
