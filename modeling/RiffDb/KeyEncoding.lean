import RiffDb.CanonicalScalars
import RiffDb.OrderedBytes

/-!
# Durable key encoding

Durable keys are built by pushing components onto a purpose prefix and a type identifier, and
compared byte by byte. The comparison is the component-wise one for every tuple of ordered
components: integers of both signs, times, dates, identifiers and byte strings with any content.

A push fails only when the key would grow beyond its limit.
-/

namespace KeyEncoding

open ByteWire CheckedCode CanonicalScalars OrderedBytes List

def maxKeyBytes : Nat := 4096

def entityKeyV1Purpose : Bytes := [0x45, 0x01]

def conflictKeyV1Purpose : Bytes := [0x43, 0x01]

def partitionKeyV1Purpose : Bytes := [0x50, 0x01]

def indexEntryKeyV1Purpose : Bytes := [0x49, 0x01]

inductive KeyEncodingError where
  | tooLong (actual maximum : Nat)
  | componentTooLong (actual maximum : Nat)
deriving DecidableEq, Repr

@[ext] structure KeyBuilder where
  bytes : Bytes
deriving DecidableEq, Repr

variable (builder : KeyBuilder)

namespace KeyBuilder

/-- Each purpose has its own leading bytes, so that keys of different purposes never meet. -/
def new (purpose : Bytes) (typeId : NonZeroU32) : KeyBuilder := ⟨purpose ++ u32ToBeBytes typeId.get⟩

def entityKeyBuilder (entityType : NonZeroU32) : KeyBuilder := new entityKeyV1Purpose entityType

def conflictKeyBuilder (aggregateType : NonZeroU32) : KeyBuilder :=
  new conflictKeyV1Purpose aggregateType

def partitionKeyBuilder (aggregateType : NonZeroU32) : KeyBuilder :=
  new partitionKeyV1Purpose aggregateType

def indexEntryKeyBuilder (index : NonZeroU32) : KeyBuilder := new indexEntryKeyV1Purpose index

def ensureAdditional (additional : Nat) : Except KeyEncodingError Unit :=
  require (builder.bytes.length + additional ≤ maxKeyBytes)
    (.tooLong (builder.bytes.length + additional) maxKeyBytes)

def pushFixed (bytes : Bytes) : Except KeyEncodingError KeyBuilder := do
  builder.ensureAdditional bytes.length
  .ok ⟨builder.bytes ++ bytes⟩

/-- A length in front of exact bytes. -/
def pushBytes (bytes : Bytes) : Except KeyEncodingError KeyBuilder := do
  require (bytes.length < 2 ^ 32) (.componentTooLong bytes.length (2 ^ 32 - 1))
  builder.ensureAdditional (4 + bytes.length)
  .ok ⟨builder.bytes ++ beBytes 4 bytes.length ++ bytes⟩

/-- The room needed is counted before any byte is written. -/
def pushOrdered (bytes : Bytes) (terminated : Bool) : Except KeyEncodingError KeyBuilder := do
  let zeros := bytes.countP (· == 0)
  builder.ensureAdditional (bytes.length + zeros + if terminated then 2 else 0)
  .ok ⟨builder.bytes ++ escape bytes ++ if terminated then [0, 0] else []⟩

def pushBool (value : Bool) : Except KeyEncodingError KeyBuilder :=
  builder.pushFixed [if value then 1 else 0]

def pushU32 (value : UInt32) : Except KeyEncodingError KeyBuilder :=
  builder.pushFixed (u32ToBeBytes value)

def pushU64 (value : UInt64) : Except KeyEncodingError KeyBuilder :=
  builder.pushFixed (u64ToBeBytes value)

def pushI32 (value : Int32) : Except KeyEncodingError KeyBuilder :=
  builder.pushFixed (flipSign (i32ToBeBytes value))

def pushI64 (value : Int64) : Except KeyEncodingError KeyBuilder :=
  builder.pushFixed (flipSign (i64ToBeBytes value))

def pushTimestamp (value : Timestamp) : Except KeyEncodingError KeyBuilder :=
  builder.pushFixed (flipSign (i64ToBeBytes value.seconds) ++ u32ToBeBytes value.nanoseconds)

def pushDate (value : Date) : Except KeyEncodingError KeyBuilder :=
  builder.pushFixed (flipSign (i32ToBeBytes value.daysSinceUnixEpoch))

def pushEnumVariant (value : EnumVariantId) : Except KeyEncodingError KeyBuilder :=
  builder.pushFixed (u32ToBeBytes value.get)

def pushUuid (value : ByteArrayOf 16) : Except KeyEncodingError KeyBuilder :=
  builder.pushFixed value.toList

def pushStr (value : String) : Except KeyEncodingError KeyBuilder :=
  builder.pushBytes (utf8Bytes value)

def pushOrderedBytes (value : Bytes) : Except KeyEncodingError KeyBuilder :=
  builder.pushOrdered value true

/-- The beginning of an ordered-byte component, without its terminator. -/
def pushOrderedBytesPrefix (value : Bytes) : Except KeyEncodingError KeyBuilder :=
  builder.pushOrdered value false

/-- The component bytes stand behind the builder's, and together they keep the limit. -/
def Extends (bytes : Bytes) (result : KeyBuilder) : Prop :=
  builder.bytes.length + bytes.length ≤ maxKeyBytes ∧ result.bytes = builder.bytes ++ bytes

variable {builder result : KeyBuilder} {bytes : Bytes}

theorem pushFixed_eq_ok : builder.pushFixed bytes = .ok result ↔ builder.Extends bytes result := by
  simp only [pushFixed, ensureAdditional, bind_eq_ok, require_eq_ok, exists_const, Except.ok.injEq,
    Extends, KeyBuilder.ext_iff]
  rw [eq_comm (a := result.bytes)]

theorem pushOrdered_eq_ok {terminated : Bool} : builder.pushOrdered bytes terminated = .ok result ↔
      builder.Extends (escape bytes ++ if terminated then [0, 0] else []) result := by
  have room : (escape bytes ++ if terminated then [0, 0] else []).length =
      bytes.length + bytes.countP (· == 0) + if terminated then 2 else 0 := by
    rw [length_append, length_escape]
    cases terminated <;> rfl
  simp only [pushOrdered, ensureAdditional, bind_eq_ok, require_eq_ok, exists_const,
    Except.ok.injEq, Extends, KeyBuilder.ext_iff, append_assoc, room]
  rw [eq_comm (a := result.bytes)]

theorem pushBytes_eq_ok : builder.pushBytes bytes = .ok result ↔ bytes.length < 2 ^ 32 ∧
      builder.Extends (beBytes 4 bytes.length ++ bytes) result := by
  simp only [pushBytes, ensureAdditional, bind_eq_ok, require_eq_ok, exists_const, Except.ok.injEq,
    Extends, KeyBuilder.ext_iff, append_assoc, length_append, length_beBytes]
  rw [eq_comm (a := result.bytes)]

end KeyBuilder

/-- The types a component of an ordered key can have. -/
inductive ComponentType where
  | bool
  | u32
  | u64
  | i32
  | i64
  | timestamp
  | date
  | enumVariant
  | uuid
  | orderedBytes
deriving DecidableEq, Repr

namespace ComponentType

@[reducible] def Value : ComponentType → Type
  | bool => Bool
  | u32 => UInt32
  | u64 => UInt64
  | i32 => Int32
  | i64 => Int64
  | timestamp => Timestamp
  | date => Date
  | enumVariant => EnumVariantId
  | uuid => ByteArrayOf 16
  | orderedBytes => Bytes

/-- The order of the values themselves. -/
def order : (type : ComponentType) → type.Value → type.Value → Ordering
  | bool => fun (left right : Bool) => compare left right
  | u32 => fun (left right : UInt32) => compare left right
  | u64 => fun (left right : UInt64) => compare left right
  | i32 => fun (left right : Int32) => compare left right
  | i64 => fun (left right : Int64) => compare left right
  | timestamp => fun (left right : Timestamp) =>
      (compare left.seconds right.seconds).then (compare left.nanoseconds right.nanoseconds)
  | date => fun (left right : Date) => compare left.daysSinceUnixEpoch right.daysSinceUnixEpoch
  | enumVariant => fun (left right : EnumVariantId) => compare left.get right.get
  | uuid => fun (left right : ByteArrayOf 16) => compare left.toList right.toList
  | orderedBytes => fun (left right : Bytes) => compare left right

def push : (type : ComponentType) → type.Value → Except KeyEncodingError KeyBuilder
  | bool => builder.pushBool
  | u32 => builder.pushU32
  | u64 => builder.pushU64
  | i32 => builder.pushI32
  | i64 => builder.pushI64
  | timestamp => builder.pushTimestamp
  | date => builder.pushDate
  | enumVariant => builder.pushEnumVariant
  | uuid => builder.pushUuid
  | orderedBytes => builder.pushOrderedBytes

/-- The bytes a push appends. -/
def encode : (type : ComponentType) → type.Value → Bytes
  | bool => fun (value : Bool) => [if value then 1 else 0]
  | u32 => u32ToBeBytes
  | u64 => u64ToBeBytes
  | i32 => fun value => flipSign (i32ToBeBytes value)
  | i64 => fun value => flipSign (i64ToBeBytes value)
  | timestamp => fun (value : Timestamp) =>
      flipSign (i64ToBeBytes value.seconds) ++ u32ToBeBytes value.nanoseconds
  | date => fun (value : Date) => flipSign (i32ToBeBytes value.daysSinceUnixEpoch)
  | enumVariant => fun (value : EnumVariantId) => u32ToBeBytes value.get
  | uuid => fun (value : ByteArrayOf 16) => value.toList
  | orderedBytes => fun value => escape value ++ [0, 0]

open KeyBuilder

theorem push_eq_ok {builder result : KeyBuilder} {type : ComponentType} {value : type.Value} :
    type.push builder value = .ok result ↔ builder.Extends (type.encode value) result := by
  cases type with
  | orderedBytes => exact pushOrdered_eq_ok
  | _ => exact pushFixed_eq_ok

theorem ordered_u32 : Ordered compare u32ToBeBytes := by
  apply Ordered.word
  · intro value
    exact value.toNat_lt
  · intro left right
    simp only [compare, compareOfLessAndEq, UInt32.lt_iff_toNat_lt, UInt32.toNat_inj]

theorem ordered_u64 : Ordered compare u64ToBeBytes := by
  apply Ordered.word
  · intro value
    exact value.toNat_lt
  · intro left right
    simp only [compare, compareOfLessAndEq, UInt64.lt_iff_toNat_lt, UInt64.toNat_inj]

theorem ordered_i32 : Ordered compare (fun value => flipSign (i32ToBeBytes value)) := by
  apply Ordered.signed
  · intro value
    have least := value.le_toInt
    omega
  · intro value
    have greatest := value.toInt_lt
    omega
  · intro left right
    simp only [compare, compareOfLessAndEq, Int32.lt_iff_toInt_lt, Int32.toInt_inj]

theorem ordered_i64 : Ordered compare (fun value => flipSign (i64ToBeBytes value)) := by
  apply Ordered.signed
  · intro value
    have least := value.le_toInt
    omega
  · intro value
    have greatest := value.toInt_lt
    omega
  · intro left right
    simp only [compare, compareOfLessAndEq, Int64.lt_iff_toInt_lt, Int64.toInt_inj]

theorem ordered_bool :
    Ordered compare (fun value : Bool => [if value then (1 : UInt8) else 0]) := by
  intro left right leftRest rightRest
  cases left <;> cases right <;> rfl

/-- Every component type encodes its values in their order. -/
theorem ordered (type : ComponentType) : Ordered type.order type.encode := by
  cases type with
  | bool => exact ordered_bool
  | u32 => exact ordered_u32
  | u64 => exact ordered_u64
  | i32 => exact ordered_i32
  | i64 => exact ordered_i64
  | timestamp =>
    exact (ordered_i64.append ordered_u32).comap
      fun value : Timestamp => (value.seconds, value.nanoseconds)
  | date => exact ordered_i32.comap Date.daysSinceUnixEpoch
  | enumVariant => exact ordered_u32.comap NonZeroU32.get
  | uuid =>
    intro left right leftRest rightRest
    exact compare_append_of_length
      ((List.Vector.toList_length left).trans (List.Vector.toList_length right).symm) _ _
  | orderedBytes => exact ordered_escape

theorem order_eq_iff (type : ComponentType) (left right : type.Value) :
    type.order left right = .eq ↔ left = right := by
  cases type with
  | timestamp =>
    refine Ordering.then_eq_eq.trans ?_
    rw [Std.compare_eq_iff_eq, Std.compare_eq_iff_eq]
    exact Timestamp.ext_iff.symm
  | date => exact Std.compare_eq_iff_eq.trans Date.ext_iff.symm
  | enumVariant => exact Std.compare_eq_iff_eq.trans NonZeroU32.ext_iff.symm
  | uuid => exact Std.compare_eq_iff_eq.trans List.Vector.toList_injective.eq_iff
  | _ => exact Std.compare_eq_iff_eq

end ComponentType

/-- Components of the given types, in order. -/
inductive Tuple : List ComponentType → Type where
  | nil : Tuple []
  | cons {type : ComponentType} {types : List ComponentType} (value : type.Value)
      (rest : Tuple types) : Tuple (type :: types)

namespace Tuple

variable {shape before after : List ComponentType}

/-- The first differing component decides. -/
def order : {shape : List ComponentType} → Tuple shape → Tuple shape → Ordering
  | _, .nil, .nil => .eq
  | type :: _, .cons left leftRest, .cons right rightRest =>
      (type.order left right).then (order leftRest rightRest)

def append : {before : List ComponentType} → Tuple before → Tuple after → Tuple (before ++ after)
  | _, .nil, back => back
  | _, .cons value rest, back => .cons value (append rest back)

/-- Push every component of a tuple, in order. -/
def pushAll : {shape : List ComponentType} → Tuple shape → KeyBuilder →
    Except KeyEncodingError KeyBuilder
  | _, .nil, builder => .ok builder
  | type :: _, .cons value rest, builder => do
    let pushed ← type.push builder value
    pushAll rest pushed

def encode : {shape : List ComponentType} → Tuple shape → Bytes
  | _, .nil => []
  | type :: _, .cons value rest => type.encode value ++ encode rest

theorem encode_cons {type : ComponentType} (value : type.Value) (rest : Tuple shape) :
    (Tuple.cons value rest).encode = type.encode value ++ rest.encode := rfl

theorem order_eq_iff : {shape : List ComponentType} → (left right : Tuple shape) →
    (left.order right = .eq ↔ left = right)
  | _, .nil, .nil => by simp [order]
  | type :: _, .cons left leftRest, .cons right rightRest => by
    rw [order, Ordering.then_eq_eq, type.order_eq_iff, order_eq_iff leftRest rightRest]
    constructor
    · rintro ⟨rfl, rfl⟩
      rfl
    · intro same
      cases same
      exact ⟨rfl, rfl⟩

/-- Tuples of one shape are encoded in their order. -/
theorem ordered : (shape : List ComponentType) → Ordered (@order shape) (@encode shape)
  | [] => by
    rintro ⟨⟩ ⟨⟩ leftRest rightRest
    rfl
  | type :: shape => by
    rintro (_ | ⟨left, leftTail⟩) (_ | ⟨right, rightTail⟩) leftRest rightRest
    rw [encode, encode, List.append_assoc, List.append_assoc, type.ordered left right,
      ordered shape leftTail rightTail, order, Ordering.then_assoc]

theorem encode_append : {before : List ComponentType} → (front : Tuple before) →
    (back : Tuple after) → (front.append back).encode = front.encode ++ back.encode
  | _, .nil, _ => rfl
  | _, .cons _ rest, back => by
    rw [append, encode, encode, encode_append rest back, List.append_assoc]

theorem pushAll_bytes : {shape : List ComponentType} → {tuple : Tuple shape} →
    {builder key : KeyBuilder} → tuple.pushAll builder = .ok key →
    key.bytes = builder.bytes ++ tuple.encode
  | _, .nil, builder, key, built => by
    cases built
    rw [encode, List.append_nil]
  | type :: _, .cons value rest, builder, key, built => by
    rw [pushAll, bind_eq_ok] at built
    obtain ⟨pushed, first, others⟩ := built
    rw [pushAll_bytes others, (ComponentType.push_eq_ok.mp first).2, encode, append_assoc]

end Tuple

section Keys

variable {shape before after : List ComponentType} {builder leftKey rightKey : KeyBuilder}

open KeyEncoding.Tuple

section

variable {left right : Tuple shape} (leftBuilt : left.pushAll builder = .ok leftKey)
  (rightBuilt : right.pushAll builder = .ok rightKey)

include leftBuilt rightBuilt

theorem compare_keys : compare leftKey.bytes rightKey.bytes = left.order right := by
  rw [pushAll_bytes leftBuilt, pushAll_bytes rightBuilt,
    compare_append_of_length rfl, Std.compare_self, Ordering.eq_then]
  exact (ordered shape).compare_eq left right

/-- A key that leads another one of its shape belongs to the same tuple. -/
theorem eq_of_isPrefix (leads : leftKey.bytes <+: rightKey.bytes) : left = right := by
  rw [pushAll_bytes leftBuilt, pushAll_bytes rightBuilt, prefix_append_right_inj] at leads
  exact (order_eq_iff left right).mp ((ordered shape).eq_of_isPrefix leads)

end

/-- What an unterminated component leads, once the builder's own bytes are removed. -/
theorem isPrefix_iff (front keyFront : Tuple before) (lead value : Bytes) (back : Tuple after) :
    front.encode ++ escape lead <+: keyFront.encode ++ (escape value ++ [0, 0] ++ back.encode) ↔
      front = keyFront ∧ lead <+: value := by
  constructor
  · rintro ⟨rest, whole⟩
    rw [append_assoc] at whole
    obtain ⟨sameFront, behind⟩ := (ordered before).split whole
    exact ⟨(order_eq_iff front keyFront).mp sameFront,
      (escape_isPrefix_iff lead value back.encode).mp ⟨rest, behind⟩⟩
  · rintro ⟨rfl, leads⟩
    rw [prefix_append_right_inj]
    exact (escape_isPrefix_iff lead value back.encode).mpr leads

/-- The keys of two tuples of one shape compare as the tuples do. They are equal only for equal
tuples, neither is a proper prefix of the other, and an unterminated ordered-byte component
leads exactly the keys whose component starts with its bytes behind the same components. -/
theorem key_order (builder : KeyBuilder) :
    (∀ (shape : List ComponentType) (left right : Tuple shape) (leftKey rightKey : KeyBuilder),
      left.pushAll builder = .ok leftKey → right.pushAll builder = .ok rightKey →
      compare leftKey.bytes rightKey.bytes = left.order right ∧
      (leftKey = rightKey ↔ left = right) ∧
      (leftKey.bytes <+: rightKey.bytes → leftKey = rightKey)) ∧
    (∀ (before after : List ComponentType) (front keyFront : Tuple before) (lead value : Bytes)
      (back : Tuple after) (pushed start key : KeyBuilder),
      front.pushAll builder = .ok pushed → pushed.pushOrderedBytesPrefix lead = .ok start →
      (keyFront.append (@Tuple.cons .orderedBytes after value back)).pushAll builder = .ok key →
      (start.bytes <+: key.bytes ↔ front = keyFront ∧ lead <+: value)) := by
  constructor
  · intro shape left right leftKey rightKey leftBuilt rightBuilt
    refine ⟨compare_keys leftBuilt rightBuilt, ?_, ?_⟩
    · constructor
      · rintro rfl
        exact eq_of_isPrefix leftBuilt rightBuilt (prefix_refl _)
      · rintro rfl
        exact Except.ok.inj (leftBuilt.symm.trans rightBuilt)
    · intro leads
      obtain rfl := eq_of_isPrefix leftBuilt rightBuilt leads
      exact Except.ok.inj (leftBuilt.symm.trans rightBuilt)
  · intro before after front keyFront lead value back pushed start key frontBuilt started built
    have startBytes := (KeyBuilder.pushOrdered_eq_ok.mp started).2
    rw [pushAll_bytes frontBuilt, append_assoc] at startBytes
    rw [startBytes, pushAll_bytes built, encode_append, encode_cons, prefix_append_right_inj]
    simpa [ComponentType.encode] using isPrefix_iff front keyFront lead value back

/-- A signed integer in front of a byte string. -/
def numberedText (number : Int64) (text : Bytes) : Tuple [.i64, .orderedBytes] :=
  @Tuple.cons .i64 _ number (@Tuple.cons .orderedBytes _ text .nil)

/-- A negative number sorts first; a text sorts before its continuation by a zero byte, and its
unterminated form leads that continuation. -/
theorem key_order_sample :
    ∃ first second third pushed start : KeyBuilder,
      (numberedText (-1) [9]).pushAll ⟨[0x45, 0x01]⟩ = .ok first ∧
      (numberedText 3 [7]).pushAll ⟨[0x45, 0x01]⟩ = .ok second ∧
      (numberedText 3 [7, 0]).pushAll ⟨[0x45, 0x01]⟩ = .ok third ∧
      (@Tuple.cons .i64 [] (3 : Int64) .nil).pushAll ⟨[0x45, 0x01]⟩ = .ok pushed ∧
      pushed.pushOrderedBytesPrefix [7] = .ok start ∧
      compare first.bytes second.bytes = .lt ∧ compare second.bytes third.bytes = .lt ∧
      start.bytes <+: third.bytes := by
  refine ⟨_, _, _, _, _, rfl, rfl, rfl, rfl, rfl, ?_, ?_, ?_⟩
  · exact ((key_order ⟨[0x45, 0x01]⟩).1 _ (numberedText (-1) [9]) (numberedText 3 [7]) _ _
      rfl rfl).1.trans rfl
  · exact ((key_order ⟨[0x45, 0x01]⟩).1 _ (numberedText 3 [7]) (numberedText 3 [7, 0]) _ _
      rfl rfl).1.trans rfl
  · exact ((key_order ⟨[0x45, 0x01]⟩).2 [.i64] [] (@Tuple.cons .i64 [] (3 : Int64) .nil)
      (@Tuple.cons .i64 [] (3 : Int64) .nil) [7] [7, 0] .nil _ _ _ rfl rfl rfl).mpr
      ⟨rfl, prefix_append [7] [0]⟩

end Keys

/-- An index entry key ends with the complete key of its entity. -/
def finishIndexEntry (entityKey : Bytes) : Except KeyEncodingError KeyBuilder :=
  builder.pushBytes entityKey

/-- Index entries sort by their components; entries with equal components stay apart by their
entity keys. -/
theorem compare_indexEntries {shape : List ComponentType} {builder leftKey rightKey leftEntry
    rightEntry : KeyBuilder} {left right : Tuple shape} {leftEntity rightEntity : Bytes}
    (leftBuilt : left.pushAll builder = .ok leftKey)
    (leftFinished : finishIndexEntry leftKey leftEntity = .ok leftEntry)
    (rightBuilt : right.pushAll builder = .ok rightKey)
    (rightFinished : finishIndexEntry rightKey rightEntity = .ok rightEntry) :
    compare leftEntry.bytes rightEntry.bytes = (left.order right).then
      ((compare leftEntity.length rightEntity.length).then (compare leftEntity rightEntity)) := by
  obtain ⟨leftFits, _, leftBytes⟩ := KeyBuilder.pushBytes_eq_ok.mp leftFinished
  obtain ⟨rightFits, _, rightBytes⟩ := KeyBuilder.pushBytes_eq_ok.mp rightFinished
  have entities := @compare_lengthPrefixed 4 leftEntity rightEntity leftFits rightFits [] []
  rw [append_nil, append_nil, Std.compare_self, Ordering.then_eq] at entities
  rw [leftBytes, rightBytes, Tuple.pushAll_bytes leftBuilt, Tuple.pushAll_bytes rightBuilt,
    append_assoc, append_assoc, compare_append_of_length rfl, Std.compare_self,
    Ordering.eq_then, Tuple.ordered shape left right, entities]

theorem compare_indexEntries_sample : ∃ key first second,
    (numberedText 3 [7]).pushAll ⟨[0x49, 0x01]⟩ = .ok key ∧ finishIndexEntry key [9] = .ok first ∧
      finishIndexEntry key [1, 2] = .ok second ∧ compare first.bytes second.bytes = .lt := by
  have built : (numberedText 3 [7]).pushAll ⟨[0x49, 0x01]⟩ = .ok _ := rfl
  exact ⟨_, _, _, built, rfl, rfl,
    (@compare_indexEntries _ _ _ _ _ _ _ _ [9] [1, 2] built rfl built rfl).trans rfl⟩

end KeyEncoding
