import RiffDb.KeySchemas

/-!
# What a key schema reads and writes

A component is read back from the inputs that start with its bytes, and from no other. With an
arbitrary rest this makes components self-delimiting: the walkers over complete keys, index keys and
prefixes need no framing.

The bound of a schema is computed from the longest payload of each component, so values of the right
types never meet the limit of the key builder.
-/

namespace KeySchemaCodec

open ByteWire CheckedCode ByteReader CanonicalScalars CanonicalValues OrderedBytes KeyEncoding
  ValueTypes ValueType KeyBuilder List
open KeySchemas KeySchemas.KeySchema

/-- The bytes of a component behind the given codec. -/
def componentBytes : KeyComponentCodecV1 → CanonicalValue → Bytes
  | .orderedBytes, .bytes value => escape value.asBytes ++ [0, 0]
  | .canonical, .bool value => [if value then 1 else 0]
  | .canonical, .i64 value => flipSign (i64ToBeBytes value)
  | .canonical, .u64 value => u64ToBeBytes value
  | .canonical, .string value => beBytes 4 (utf8Bytes value.text).length ++ utf8Bytes value.text
  | .canonical, .bytes value => beBytes 4 value.asBytes.length ++ value.asBytes
  | .canonical, .timestamp value =>
      flipSign (i64ToBeBytes value.seconds) ++ u32ToBeBytes value.nanoseconds
  | .canonical, .date value => flipSign (i32ToBeBytes value.daysSinceUnixEpoch)
  | .canonical, .uuid value => value.toList
  | .canonical, .enum _ variantId => u32ToBeBytes variantId.get
  | _, _ => []

/-- The value has the component's type, and an enumeration value is a declared variant. -/
def Satisfies (schema : KeyComponentSchema) (value : CanonicalValue) : Prop :=
  validateKeyValue schema value = .ok ()

variable {value : CanonicalValue} {schema : KeyComponentSchema}

theorem satisfies_iff :
    Satisfies schema value ↔ schema.valueType.accepts value = true ∧
      declares schema value = true := by
  simp only [Satisfies, validateKeyValue, validateValue, bind_eq_ok, require_eq_ok, exists_const]

/-- Values of the types that are written as words of a fixed width. -/
inductive Word : ValueType → CanonicalValue → Prop where
  | bool (value : Bool) : Word .bool (.bool value)
  | i64 (value : Int64) : Word .i64 (.i64 value)
  | u64 (value : UInt64) : Word .u64 (.u64 value)
  | timestamp (value : Timestamp) : Word .timestamp (.timestamp value)
  | date (value : Date) : Word .date (.date value)
  | uuid (value : ByteArrayOf 16) : Word .uuid (.uuid value)
  | enumeration (typeId : EnumTypeId) (variantId : EnumVariantId) :
      Word (.enumeration typeId) (.enum typeId variantId)

/-- The values a component with the given codec and type can hold. -/
inductive Component : KeyComponentCodecV1 → ValueType → CanonicalValue → Prop where
  | ordered {maximum : Nat} (value : CanonicalBytes) (short : value.asBytes.length ≤ maximum) :
      Component .orderedBytes (.bytes maximum) (.bytes value)
  | string {maximum : Nat} (value : CanonicalString)
      (short : (utf8Bytes value.text).length ≤ maximum) :
      Component .canonical (.string maximum) (.string value)
  | bytes {maximum : Nat} (value : CanonicalBytes) (short : value.asBytes.length ≤ maximum) :
      Component .canonical (.bytes maximum) (.bytes value)
  | word {valueType : ValueType} {value : CanonicalValue} (held : Word valueType value) :
      Component .canonical valueType value

variable {codec : KeyComponentCodecV1} {valueType : ValueType} {maximum : Nat}

theorem component_of_accepts (bounded : authoritativeComponentMaximum codec valueType = .ok maximum)
    (typed : valueType.accepts value = true) : Component codec valueType value := by
  cases codec with
  | orderedBytes =>
    cases valueType with
    | bytes limit =>
      cases value with
      | bytes value => exact .ordered value (by simpa [accepts] using typed)
      | _ => simp [accepts] at typed
    | _ => simp [authoritativeComponentMaximum] at bounded
  | canonical =>
    unfold accepts at typed
    split at typed
    case h_2 => exact .word (.bool _)
    case h_3 => exact .word (.i64 _)
    case h_4 => exact .word (.u64 _)
    case h_5 => exact .word (.timestamp _)
    case h_6 => exact .word (.date _)
    case h_7 => exact .word (.uuid _)
    case h_10 => exact .string _ (of_decide_eq_true typed)
    case h_11 => exact .bytes _ (of_decide_eq_true typed)
    case h_12 =>
      cases of_decide_eq_true typed
      exact .word (.enumeration _ _)
    case h_16 => cases typed
    all_goals cases bounded

theorem Satisfies.component
    (satisfies : Satisfies schema value) : Component schema.codec schema.valueType value :=
  component_of_accepts schema.bounded (satisfies_iff.mp satisfies).1

variable {builder result : KeyBuilder}
variable {length : Nat}

theorem fits_u32 (short : length ≤ 1024 * 1024) : length < 2 ^ 32 :=
  lt_of_le_of_lt short (by norm_num)

theorem Component.pushed (component : Component codec valueType value) :
    pushValue builder value codec = .ok result ↔
      builder.Extends (componentBytes codec value) result := by
  cases component with
  | ordered value short =>
    simp only [pushValue, pushOrderedValue, mapError_eq_ok]
    exact pushOrdered_eq_ok
  | string value short | bytes value short =>
    simp only [pushValue, pushCanonicalValue, withinBound, mapError_eq_ok]
    exact pushBytes_eq_ok.trans (and_iff_right (fits_u32 value.bounded))
  | word held =>
    cases held with
    | _ =>
      simp only [pushValue, pushCanonicalValue, withinBound, mapError_eq_ok]
      exact pushFixed_eq_ok

theorem length_flipSign (bytes : Bytes) : (flipSign bytes).length = bytes.length := by
  cases bytes with
  | nil => rfl
  | cons first rest => rfl

theorem Component.length_le (component : Component codec valueType value)
    (bounded : authoritativeComponentMaximum codec valueType = .ok maximum) :
    (componentBytes codec value).length ≤ maximum := by
  cases component with
  | ordered value short =>
    cases bounded
    have zeros : value.asBytes.countP (· == 0) ≤ value.asBytes.length := countP_le_length
    simp only [componentBytes, length_append, length_escape, length_cons, length_nil]
    omega
  | string value short | bytes value short =>
    cases bounded
    simp only [componentBytes, length_append, length_beBytes]
    omega
  | word held =>
    cases held with
    | _ =>
      cases bounded
      simp [componentBytes, length_flipSign, i64ToBeBytes, u64ToBeBytes, i32ToBeBytes, u32ToBeBytes]

variable {bytes : Bytes}

section Read

variable {input rest : Bytes}

theorem flipSign_flipSign (bytes : Bytes) : flipSign (flipSign bytes) = bytes := by
  cases bytes with
  | nil => rfl
  | cons first rest => rw [flipSign, flipSign, UInt8.xor_assoc, UInt8.xor_self, UInt8.xor_zero]

theorem flipSign_eq_iff {other : Bytes} : flipSign bytes = other ↔ bytes = flipSign other :=
  (show Function.Involutive flipSign from flipSign_flipSign).eq_iff

variable {count : Nat}

theorem toList_unflip (bytes : ByteArrayOf count) :
    (unflip bytes).toList = flipSign bytes.toList := rfl

theorem i64_unflip_eq {bytes : ByteArrayOf 8} {value : Int64} :
    i64FromBeBytes (unflip bytes) = value ↔ bytes.toList = flipSign (i64ToBeBytes value) := by
  rw [i64FromBeBytes_eq, toList_unflip, flipSign_eq_iff]

theorem i32_unflip_eq {bytes : ByteArrayOf 4} {value : Int32} :
    i32FromBeBytes (unflip bytes) = value ↔ bytes.toList = flipSign (i32ToBeBytes value) := by
  rw [i32FromBeBytes_eq, toList_unflip, flipSign_eq_iff]

theorem readArray_eq_ok {bytes : ByteArrayOf count} :
    readArray count input = .ok (bytes, rest) ↔ input = bytes.toList ++ rest := array_eq_ok

theorem readU32_eq_ok {value : UInt32} :
    readU32 input = .ok (value, rest) ↔ input = u32ToBeBytes value ++ rest := by
  simp only [readU32, bind_pure_comp, read_map_eq_ok, readArray_eq_ok, u32FromBeBytes_eq]
  constructor
  · rintro ⟨bytes, whole, same⟩
    rw [whole, same]
  · intro whole
    exact ⟨⟨u32ToBeBytes value, length_beBytes 4 _⟩, whole, rfl⟩

/-- A length in front of that many bytes. -/
theorem readSized_eq_ok :
    (∃ (length : UInt32) (middle : Bytes), readU32 input = .ok (length, middle) ∧
      take IrValidationError.unexpectedEnd length.toNat middle = .ok (bytes, rest)) ↔
      bytes.length < 2 ^ 32 ∧ input = beBytes 4 bytes.length ++ bytes ++ rest := by
  simp only [readU32_eq_ok, take_eq_ok, u32ToBeBytes]
  constructor
  · rintro ⟨length, middle, rfl, sized, rfl⟩
    rw [sized, append_assoc]
    exact ⟨length.toNat_lt, rfl⟩
  · rintro ⟨fits, rfl⟩
    have back : (UInt32.ofNat bytes.length).toNat = bytes.length := by
      rw [UInt32.toNat_ofNat', Nat.mod_eq_of_lt fits]
    exact ⟨UInt32.ofNat bytes.length, bytes ++ rest, by rw [back, append_assoc], back.symm, rfl⟩

variable {α : Type}

/-- A length in front of that many bytes, and what is made of the bytes. -/
theorem readSized_bind_eq_ok {next : UInt32 → Bytes → KeyCursor α} {result : α} :
    (do let length ← readU32
        let bytes ← take IrValidationError.unexpectedEnd length.toNat
        next length bytes : KeyCursor α) input = .ok (result, rest) ↔
      ∃ (length : UInt32) (bytes middle : Bytes), length.toNat = bytes.length ∧
        input = beBytes 4 bytes.length ++ bytes ++ middle ∧
          next length bytes middle = .ok (result, rest) := by
  simp only [read_bind_eq_ok, readU32_eq_ok, take_eq_ok, u32ToBeBytes]
  constructor
  · rintro ⟨length, _, rfl, bytes, middle, ⟨sized, rfl⟩, made⟩
    exact ⟨length, bytes, middle, sized.symm, by rw [sized, append_assoc], made⟩
  · rintro ⟨length, bytes, middle, sized, rfl, made⟩
    exact ⟨length, _, by rw [sized, append_assoc], bytes, middle, ⟨sized.symm, rfl⟩, made⟩

theorem exists_u32 (short : length ≤ 1024 * 1024) : ∃ word : UInt32, word.toNat = length :=
  ⟨UInt32.ofNat length, by rw [UInt32.toNat_ofNat', Nat.mod_eq_of_lt (fits_u32 short)]⟩

theorem readOrderedBytes_cons {byte : UInt8} (nonzero : byte ≠ 0) (rest : Bytes) :
    readOrderedBytes (byte :: rest) = (readOrderedBytes rest).map fun read =>
      (byte :: read.1, read.2) := by
  rw [readOrderedBytes.eq_def]
  exact if_neg nonzero

theorem readOrderedBytes_escape (bytes rest : Bytes) :
    readOrderedBytes (escape bytes ++ [0, 0] ++ rest) = .ok (bytes, rest) := by
  induction bytes with
  | nil => rfl
  | cons byte bytes ih =>
    rw [append_assoc] at ih
    rw [escape_cons, append_assoc, append_assoc]
    by_cases zero : byte = 0
    · subst zero
      change (readOrderedBytes (escape bytes ++ ([0, 0] ++ rest))).map _ = _
      rw [ih]
      rfl
    · rw [escapeByte, if_neg zero, singleton_append, readOrderedBytes_cons zero, ih]
      rfl

theorem readOrderedBytes_eq_ok :
    readOrderedBytes input = .ok (bytes, rest) ↔ input = escape bytes ++ [0, 0] ++ rest := by
  constructor
  · intro read
    fun_induction readOrderedBytes input generalizing bytes with
    | case1 => cases read
    | case2 => cases read
    | case3 rest =>
      cases read
      rfl
    | case4 rest nonzero ih =>
      obtain ⟨⟨inner, _⟩, found, same⟩ := map_eq_ok.mp read
      cases same
      rw [ih found]
      rfl
    | case5 => cases read
    | case6 byte rest nonzero ih =>
      obtain ⟨⟨inner, _⟩, found, same⟩ := map_eq_ok.mp read
      cases same
      rw [ih found, escape_cons, escapeByte, if_neg nonzero]
      rfl
  · rintro rfl
    exact readOrderedBytes_escape bytes rest

/-- Counting and keeping walk over the same bytes. -/
theorem validateOrderedBytes_eq (input : Bytes) : validateOrderedBytes input =
    (readOrderedBytes input).map fun read => (read.1.length, read.2) := by
  fun_induction validateOrderedBytes input with
  | case1 => rfl
  | case2 => rfl
  | case3 rest => rfl
  | case4 rest nonzero ih =>
    rw [ih, readOrderedBytes, if_pos rfl]
    simp only [if_neg nonzero, if_pos]
    cases readOrderedBytes rest <;> rfl
  | case5 mark rest nonzero other =>
    rw [readOrderedBytes, if_pos rfl]
    simp only [if_neg nonzero, if_neg other]
    rfl
  | case6 byte rest nonzero ih =>
    rw [ih, readOrderedBytes_cons nonzero]
    cases readOrderedBytes rest <;> rfl

variable {value : CanonicalValue}

theorem readBool_eq_ok : readWord .bool input = .ok (value, rest) ↔
    Word .bool value ∧ input = componentBytes .canonical value ++ rest := by
  simp only [readWord, read_bind_eq_ok, take_eq_ok, check_eq_ok]
  constructor
  · rintro ⟨byte, middle, ⟨_, rfl⟩, read, rfl⟩
    split at read
    · next isZero =>
      cases read
      exact ⟨.bool false, by rw [isZero]; rfl⟩
    · split at read
      · next isOne =>
        cases read
        exact ⟨.bool true, by rw [isOne]; rfl⟩
      · cases read
  · rintro ⟨held, rfl⟩
    cases held with
    | bool value =>
      refine ⟨_, _, ⟨rfl, rfl⟩, ?_, rfl⟩
      cases value <;> rfl

theorem readTimestamp_eq_ok : readWord .timestamp input = .ok (value, rest) ↔
      Word .timestamp value ∧ input = componentBytes .canonical value ++ rest := by
  simp only [readWord, read_bind_eq_ok, readArray_eq_ok, readU32_eq_ok, check_eq_ok, mapError_eq_ok,
    Timestamp.new_eq_ok, read_pure_eq_ok]
  constructor
  · rintro ⟨seconds, _, rfl, nanos, _, rfl, time, _, ⟨⟨isSeconds, rfl⟩, rfl⟩, rfl, rfl⟩
    refine ⟨.timestamp time, ?_⟩
    rw [i64_unflip_eq.mp isSeconds.symm, componentBytes, append_assoc]
  · rintro ⟨held, rfl⟩
    cases held with
    | timestamp time =>
      have sized : (flipSign (i64ToBeBytes time.seconds)).length = 8 := by
        rw [length_flipSign]
        exact length_twosComplement 8 _
      refine ⟨⟨_, sized⟩, _, by rw [componentBytes, append_assoc]; rfl, time.nanoseconds, rest,
        rfl, time, rest, ⟨⟨?_, rfl⟩, rfl⟩, rfl, rfl⟩
      exact (i64_unflip_eq.mpr rfl).symm

variable {valueType : ValueType}

/-- A word of one conversion: the array that is read is the one the conversion writes. -/
theorem readConverted_eq_ok (convert : ByteArrayOf count → α) (encode : α → Bytes)
    (view : α → CanonicalValue) (sized : ∀ held, (encode held).length = count)
    (converts : ∀ bytes held, convert bytes = held ↔ bytes.toList = encode held)
    (written : ∀ held, componentBytes .canonical (view held) = encode held)
    (formed : ∀ held, Word valueType (view held))
    (shape : ∀ found, Word valueType found → ∃ held, view held = found) :
    (do let array ← readArray count; pure (view (convert array)) : KeyCursor CanonicalValue) input =
      .ok (value, rest) ↔ Word valueType value ∧
        input = componentBytes .canonical value ++ rest := by
  simp only [read_bind_eq_ok, read_pure_eq_ok]
  constructor
  · rintro ⟨array, middle, read, rfl, rfl⟩
    refine ⟨formed _, ?_⟩
    rw [written, readArray_eq_ok.mp read, (converts array _).mp rfl]
  · rintro ⟨word, rfl⟩
    obtain ⟨held, rfl⟩ := shape value word
    refine ⟨⟨encode held, sized held⟩, rest, ?_, congrArg view ((converts _ held).mpr rfl), rfl⟩
    rw [written]
    exact readArray_eq_ok.mpr rfl

theorem readEnum_eq_ok {typeId : EnumTypeId} :
    readWord (.enumeration typeId) input = .ok (value, rest) ↔
      Word (.enumeration typeId) value ∧ input = componentBytes .canonical value ++ rest := by
  simp only [readWord, read_bind_eq_ok, readU32_eq_ok, check_eq_ok, okOr_eq_ok,
    NonZeroU32.new_eq_some, read_pure_eq_ok]
  constructor
  · rintro ⟨raw, _, rfl, variantId, _, ⟨rfl, rfl⟩, rfl, rfl⟩
    exact ⟨.enumeration typeId variantId, rfl⟩
  · rintro ⟨held, rfl⟩
    cases held with
    | enumeration _ variantId =>
      exact ⟨variantId.get, rest, rfl, variantId, rest, ⟨rfl, rfl⟩, rfl, rfl⟩

theorem readWord_eq_ok : readWord valueType input = .ok (value, rest) ↔
      Word valueType value ∧ input = componentBytes .canonical value ++ rest := by
  have flipped (bytes : Bytes) {count : Nat} (sized : bytes.length = count) :
      (flipSign bytes).length = count := (length_flipSign bytes).trans sized
  cases valueType with
  | bool => exact readBool_eq_ok
  | timestamp => exact readTimestamp_eq_ok
  | enumeration typeId => exact readEnum_eq_ok
  | i64 =>
    refine readConverted_eq_ok (fun bytes => i64FromBeBytes (unflip bytes))
      (fun held => flipSign (i64ToBeBytes held)) .i64
      (fun held => flipped _ (length_twosComplement 8 _)) (fun _ _ => i64_unflip_eq)
      (fun _ => rfl) .i64 ?_
    rintro _ ⟨⟩
    exact ⟨_, rfl⟩
  | u64 =>
    refine readConverted_eq_ok u64FromBeBytes u64ToBeBytes .u64 (fun _ => length_beBytes 8 _)
      (fun _ _ => u64FromBeBytes_eq) (fun _ => rfl) .u64 ?_
    rintro _ ⟨⟩
    exact ⟨_, rfl⟩
  | date =>
    refine readConverted_eq_ok (fun bytes => (⟨i32FromBeBytes (unflip bytes)⟩ : Date))
      (fun held => flipSign (i32ToBeBytes held.daysSinceUnixEpoch)) .date
      (fun held => flipped _ (length_twosComplement 4 _))
      (fun _ _ => Date.ext_iff.trans i32_unflip_eq) (fun _ => rfl) .date ?_
    rintro _ ⟨⟩
    exact ⟨_, rfl⟩
  | uuid =>
    refine readConverted_eq_ok id (fun held : ByteArrayOf 16 => held.toList) .uuid
      (fun held => held.toList_length) (fun _ _ => List.Vector.toList_injective.eq_iff.symm)
      (fun _ => rfl) .uuid ?_
    rintro _ ⟨⟩
    exact ⟨_, rfl⟩
  | _ =>
    constructor
    · intro read
      cases read
    · rintro ⟨⟨⟩, _⟩

variable {schema : KeyComponentSchema}

theorem readOrderedComponent_eq_ok : readOrderedComponent true schema input = .ok (value, rest) ↔
      ∃ held : CanonicalBytes, value = .bytes held ∧ Satisfies schema (.bytes held) ∧
        input = escape held.asBytes ++ [0, 0] ++ rest := by
  simp only [readOrderedComponent, if_true, read_bind_eq_ok, readOrderedBytes_eq_ok, check_eq_ok,
    mapError_eq_ok, CanonicalBytes.new_eq_ok, read_pure_eq_ok]
  constructor
  · rintro ⟨_, _, rfl, held, _, ⟨rfl, rfl⟩, _, _, ⟨typed, rfl⟩, rfl, rfl⟩
    exact ⟨held, rfl, typed, rfl⟩
  · rintro ⟨held, rfl, typed, rfl⟩
    exact ⟨_, _, rfl, held, _, ⟨rfl, rfl⟩, (), _, ⟨typed, rfl⟩, rfl, rfl⟩

theorem readStringComponent_eq_ok :
    readStringComponent true schema maximum input = .ok (value, rest) ↔
      ∃ held : CanonicalString, value = .string held ∧ Satisfies schema (.string held) ∧
        input = beBytes 4 (utf8Bytes held.text).length ++ utf8Bytes held.text ++ rest := by
  rw [readStringComponent, readSized_bind_eq_ok]
  simp only [if_true, read_bind_eq_ok, check_eq_ok, okOr_eq_ok, mapError_eq_ok, fromUtf8_eq_some,
    CanonicalString.new_eq_ok, read_pure_eq_ok]
  constructor
  · rintro ⟨_, _, _, _, rfl, _, _, ⟨rfl, rfl⟩, held, _, ⟨rfl, rfl⟩, _, _, ⟨typed, rfl⟩, rfl, rfl⟩
    exact ⟨held, rfl, typed, rfl⟩
  · rintro ⟨held, rfl, typed, rfl⟩
    obtain ⟨length, sized⟩ := exists_u32 held.bounded
    exact ⟨length, _, _, sized, rfl, _, _, ⟨rfl, rfl⟩, held, _, ⟨rfl, rfl⟩, (), _,
      ⟨typed, rfl⟩, rfl, rfl⟩

theorem readBytesComponent_eq_ok :
    readBytesComponent true schema maximum input = .ok (value, rest) ↔
      ∃ held : CanonicalBytes, value = .bytes held ∧ Satisfies schema (.bytes held) ∧
        input = beBytes 4 held.asBytes.length ++ held.asBytes ++ rest := by
  rw [readBytesComponent, readSized_bind_eq_ok]
  simp only [if_true, read_bind_eq_ok, check_eq_ok, mapError_eq_ok, CanonicalBytes.new_eq_ok,
    read_pure_eq_ok]
  constructor
  · rintro ⟨_, _, _, _, rfl, held, _, ⟨rfl, rfl⟩, _, _, ⟨typed, rfl⟩, rfl, rfl⟩
    exact ⟨held, rfl, typed, rfl⟩
  · rintro ⟨held, rfl, typed, rfl⟩
    obtain ⟨length, sized⟩ := exists_u32 held.bounded
    exact ⟨length, _, _, sized, rfl, held, _, ⟨rfl, rfl⟩, (), _, ⟨typed, rfl⟩, rfl, rfl⟩

/-- A retained component is read from exactly the inputs that start with its bytes. -/
theorem readComponent_exact (schema : KeyComponentSchema) :
    Exact (readComponent true schema) (Satisfies schema) (componentBytes schema.codec) := by
  intro input value rest
  have component : Satisfies schema value → Component schema.codec schema.valueType value :=
    Satisfies.component
  -- a reader of one kind of values reads all that the component can hold
  have viewed {α : Type} {view : α → CanonicalValue} {encode : α → Bytes}
      (written : ∀ held, componentBytes schema.codec (view held) = encode held)
      (shape : Component schema.codec schema.valueType value → ∃ held, value = view held) :
      (∃ held, value = view held ∧ Satisfies schema (view held) ∧ input = encode held ++ rest) ↔
        Satisfies schema value ∧ input = componentBytes schema.codec value ++ rest := by
    constructor
    · rintro ⟨held, rfl, typed, whole⟩
      exact ⟨typed, by rw [written, whole]⟩
    · rintro ⟨typed, whole⟩
      obtain ⟨held, rfl⟩ := shape (component typed)
      exact ⟨held, rfl, typed, by rw [← written, whole]⟩
  obtain ⟨valueType, variants, codec, maximum, bounded⟩ := schema
  cases codec with
  | orderedBytes =>
    refine readOrderedComponent_eq_ok.trans (viewed (fun _ => rfl) ?_)
    rintro ⟨held, _⟩
    exact ⟨held, rfl⟩
  | canonical =>
    cases valueType with
    | string limit =>
      refine readStringComponent_eq_ok.trans (viewed (fun _ => rfl) ?_)
      rintro (_ | ⟨held, _⟩ | _ | ⟨⟨⟩⟩)
      exact ⟨held, rfl⟩
    | bytes limit =>
      refine readBytesComponent_eq_ok.trans (viewed (fun _ => rfl) ?_)
      rintro (_ | _ | ⟨held, _⟩ | ⟨⟨⟩⟩)
      exact ⟨held, rfl⟩
    | _ =>
      simp only [readComponent, read_bind_eq_ok, readWord_eq_ok, check_eq_ok, read_pure_eq_ok]
      constructor
      · rintro ⟨_, _, ⟨_, rfl⟩, _, _, ⟨typed, rfl⟩, rfl, rfl⟩
        exact ⟨typed, rfl⟩
      · rintro ⟨typed, rfl⟩
        cases component typed with
        | word held => exact ⟨value, rest, ⟨held, rfl⟩, (), rest, ⟨typed, rfl⟩, rfl, rfl⟩

theorem checkDropped_eq_ok {oversized : IrValidationError} {largest : Nat} {bound : Option Nat} :
    checkDropped oversized largest bound length = .ok value ↔
      length ≤ largest ∧ bound.any (length ≤ ·) = true ∧ .null = value := by
  simp only [checkDropped, bind_eq_ok, require_eq_ok, exists_const, Except.ok.injEq]

/-- Dropping the value changes nothing about which inputs are read, or how far. -/
theorem readComponent_dropped :
    (∃ dropped, readComponent false schema input = .ok (dropped, rest)) ↔
      ∃ value, readComponent true schema input = .ok (value, rest) := by
  obtain ⟨valueType, variants, codec, maximum, bounded⟩ := schema
  cases codec with
  | orderedBytes =>
    cases valueType with
    | bytes limit =>
      simp only [readComponent, readOrderedComponent_eq_ok, satisfies_iff, accepts, declares,
        decide_eq_true_eq, and_true]
      simp only [readOrderedComponent, Bool.false_eq_true, if_false, read_bind_eq_ok, check_eq_ok,
        checkDropped_eq_ok, bytesBound, Option.any_some, decide_eq_true_eq, validateOrderedBytes_eq,
        map_eq_ok]
      constructor
      · rintro ⟨_, _, _, ⟨⟨bytes, _⟩, read, same⟩, ⟨small, short, _⟩, rfl⟩
        cases same
        exact ⟨_, ⟨bytes, small⟩, rfl, short, readOrderedBytes_eq_ok.mp read⟩
      · rintro ⟨_, held, rfl, short, whole⟩
        exact ⟨_, _, _, ⟨(held.asBytes, rest), readOrderedBytes_eq_ok.mpr whole, rfl⟩,
          ⟨held.bounded, short, rfl⟩, rfl⟩
    | _ => simp [authoritativeComponentMaximum] at bounded
  | canonical =>
    cases valueType with
    | string limit =>
      simp only [readComponent, readStringComponent_eq_ok, satisfies_iff, accepts, declares,
        decide_eq_true_eq, and_true]
      simp only [readStringComponent, readSized_bind_eq_ok]
      simp only [Bool.false_eq_true, if_false, read_bind_eq_ok, check_eq_ok, okOr_eq_ok,
        fromUtf8_eq_some, checkDropped_eq_ok, Option.any_some, decide_eq_true_eq]
      constructor
      · rintro ⟨_, _, _, _, sized, rfl, text, _, ⟨rfl, rfl⟩, ⟨small, short, _⟩, rfl⟩
        exact ⟨_, ⟨text, sized ▸ small⟩, rfl, sized ▸ short, rfl⟩
      · rintro ⟨_, held, rfl, short, rfl⟩
        obtain ⟨length, sized⟩ := exists_u32 held.bounded
        exact ⟨_, length, _, _, sized, rfl, held.text, _, ⟨rfl, rfl⟩,
          ⟨sized ▸ held.bounded, sized ▸ short, rfl⟩, rfl⟩
    | bytes limit =>
      simp only [readComponent, readBytesComponent_eq_ok, satisfies_iff, accepts, declares,
        decide_eq_true_eq, and_true]
      simp only [readBytesComponent, readSized_bind_eq_ok]
      simp only [Bool.false_eq_true, if_false, check_eq_ok, checkDropped_eq_ok, Option.any_some,
        decide_eq_true_eq]
      constructor
      · rintro ⟨_, _, bytes, _, sized, rfl, ⟨small, short, _⟩, rfl⟩
        exact ⟨_, ⟨bytes, sized ▸ small⟩, rfl, sized ▸ short, rfl⟩
      · rintro ⟨_, held, rfl, short, rfl⟩
        obtain ⟨length, sized⟩ := exists_u32 held.bounded
        exact ⟨_, length, _, _, sized, rfl, ⟨sized ▸ held.bounded, sized ▸ short, rfl⟩, rfl⟩
    | _ => exact Iff.rfl

end Read

def encodeAll : List KeyComponentSchema → List CanonicalValue → Bytes
  | schema :: schemas, value :: values => componentBytes schema.codec value ++
      encodeAll schemas values
  | _, _ => []

/-- As many values as components, each of its component's type. -/
abbrev AllSatisfy (schemas : List KeyComponentSchema) (values : List CanonicalValue) : Prop :=
  List.Forall₂ Satisfies schemas values

variable {schemas : List KeyComponentSchema} {values : List CanonicalValue}

theorem allSatisfy_cons : AllSatisfy (schema :: schemas) (value :: values) ↔
      Satisfies schema value ∧ AllSatisfy schemas values := forall₂_cons

theorem length_encodeAll_le (satisfied : AllSatisfy schemas values) :
    (encodeAll schemas values).length ≤ (schemas.map (·.maximumPayloadBytes)).sum := by
  induction satisfied with
  | nil => exact Nat.zero_le _
  | cons typed _ ih =>
    rw [encodeAll, length_append, map_cons, sum_cons]
    exact Nat.add_le_add (typed.component.length_le (KeyComponentSchema.bounded _)) ih

theorem appendEach_eq_ok (counted : values.length = schemas.length)
    (started : builder.bytes.length ≤ maxKeyBytes) :
      appendEach builder (schemas.zip values) = .ok result ↔
      AllSatisfy schemas values ∧ builder.Extends (encodeAll schemas values) result := by
  induction schemas generalizing values builder with
  | nil =>
    rw [length_nil, length_eq_zero_iff] at counted
    subst counted
    simp [appendEach, KeyBuilder.Extends, encodeAll, started, KeyBuilder.ext_iff, eq_comm]
  | cons schema schemas ih =>
    cases values with
    | nil => exact absurd counted (by simp)
    | cons value values =>
      simp only [zip_cons_cons, appendEach, bind_eq_ok, allSatisfy_cons]
      constructor
      · rintro ⟨_, typed, pushed, first, others⟩
        obtain ⟨room, grown⟩ := (Satisfies.component typed).pushed.mp first
        obtain ⟨satisfied, roomAll, whole⟩ := (ih (by simpa using counted)
          (by rw [grown, length_append]; exact room)).mp others
        rw [grown, length_append] at roomAll
        refine ⟨⟨typed, satisfied⟩, ?_, ?_⟩
        · rw [encodeAll, length_append]
          omega
        · rw [whole, grown, encodeAll, append_assoc]
      · rintro ⟨⟨typed, satisfied⟩, room, whole⟩
        rw [encodeAll, length_append] at room
        have first := (Satisfies.component typed).pushed.mpr
          (show builder.Extends (componentBytes schema.codec value)
            ⟨builder.bytes ++ componentBytes schema.codec value⟩ from ⟨by omega, rfl⟩)
        refine ⟨(), typed, _, first, (ih (by simpa using counted) ?_).mpr ⟨satisfied, ?_, ?_⟩⟩
        · rw [length_append]
          omega
        · rw [length_append]
          omega
        · rw [whole, encodeAll, append_assoc]

theorem appendComponents_eq_ok (started : builder.bytes.length ≤ maxKeyBytes) :
    appendComponents builder schemas values = .ok result ↔
      AllSatisfy schemas values ∧ builder.Extends (encodeAll schemas values) result := by
  simp only [appendComponents, bind_eq_ok, require_eq_ok, exists_const]
  constructor
  · rintro ⟨counted, appended⟩
    exact (appendEach_eq_ok counted started).mp appended
  · rintro ⟨satisfied, extended⟩
    have counted : values.length = schemas.length := satisfied.length_eq.symm
    exact ⟨counted, (appendEach_eq_ok counted started).mpr ⟨satisfied, extended⟩⟩

variable {input rest : Bytes}

/-- The retained components of any input that starts with their bytes, and of no other. -/
theorem readComponents_eq_ok : readComponents true schemas input = .ok (values, rest) ↔
      AllSatisfy schemas values ∧ input = encodeAll schemas values ++ rest := by
  induction schemas generalizing values input rest with
  | nil =>
    rw [readComponents, read_pure_eq_ok]
    constructor
    · rintro ⟨rfl, rfl⟩
      exact ⟨.nil, rfl⟩
    · rintro ⟨⟨⟩, whole⟩
      exact ⟨rfl, whole⟩
  | cons schema schemas ih =>
    simp only [readComponents, read_bind_eq_ok, readComponent_exact schema input,
      read_pure_eq_ok, ih, if_true]
    constructor
    · rintro ⟨value, _, ⟨typed, rfl⟩, others, _, ⟨satisfied, rfl⟩, rfl, rfl⟩
      exact ⟨.cons typed satisfied, by rw [encodeAll, append_assoc]⟩
    · rintro ⟨satisfied, rfl⟩
      obtain ⟨value, others, typed, satisfiedRest, rfl⟩ := forall₂_cons_left_iff.mp satisfied
      exact ⟨value, _, ⟨typed, by rw [encodeAll, append_assoc]⟩, others, _,
        ⟨satisfiedRest, rfl⟩, rfl, rfl⟩

theorem readComponents_dropped : readComponents false schemas input = .ok (values, rest) ↔
      values = [] ∧ ∃ kept, readComponents true schemas input = .ok (kept, rest) := by
  induction schemas generalizing values input rest with
  | nil =>
    simp only [readComponents, read_pure_eq_ok]
    exact ⟨fun ⟨empty, same⟩ => ⟨empty.symm, [], rfl, same⟩, fun ⟨empty, _, _, same⟩ =>
      ⟨empty.symm, same⟩⟩
  | cons schema schemas ih =>
    simp only [readComponents, read_bind_eq_ok, read_pure_eq_ok, ih, Bool.false_eq_true,
      if_false, if_true]
    constructor
    · rintro ⟨dropped, middle, first, _, _, ⟨rfl, kept, others⟩, rfl, rfl⟩
      obtain ⟨value, read⟩ := readComponent_dropped.mp ⟨dropped, first⟩
      exact ⟨rfl, value :: kept, value, middle, read, kept, _, others, rfl, rfl⟩
    · rintro ⟨rfl, _, value, middle, read, kept, _, others, rfl, rfl⟩
      obtain ⟨dropped, first⟩ := readComponent_dropped.mpr ⟨value, read⟩
      exact ⟨dropped, middle, first, _, _, ⟨rfl, kept, others⟩, rfl, rfl⟩

variable {front values : List CanonicalValue}

/-- Leading components start a longer tuple exactly when their values do. -/
theorem encodeAll_isPrefix_iff
    (leading : AllSatisfy (schemas.take front.length) front) (satisfied : AllSatisfy schemas values)
    {rest : Bytes} :
      encodeAll (schemas.take front.length) front <+: encodeAll schemas values ++ rest ↔
      front <+: values := by
  induction schemas generalizing front values with
  | nil =>
    obtain rfl : front = [] := by simpa using leading
    simp [encodeAll]
  | cons schema schemas ih =>
    obtain ⟨value, others, typed, satisfiedRest, rfl⟩ := forall₂_cons_left_iff.mp satisfied
    cases front with
    | nil => simp [encodeAll]
    | cons first front =>
      rw [length_cons, take_succ_cons, allSatisfy_cons] at leading
      rw [length_cons, take_succ_cons, encodeAll, encodeAll, append_assoc,
        cons_prefix_cons, ← ih leading.2 satisfiedRest]
      constructor
      · rintro ⟨tail, whole⟩
        -- Both tuples are read from one input, so their first components agree.
        rw [append_assoc] at whole
        obtain ⟨rfl, behind⟩ := (readComponent_exact schema).split leading.1 typed whole
        exact ⟨rfl, tail, behind⟩
      · rintro ⟨rfl, tail, whole⟩
        exact ⟨tail, by rw [append_assoc, whole]⟩

section Complete

variable {purpose : Bytes} {owner : NonZeroU32} {schemas : List KeyComponentSchema}
  {values : List CanonicalValue} {bytes : Bytes}

theorem expectPrefix_eq_ok (sized : purpose.length = 2) {word : UInt32} {passed : Unit} :
    expectPrefix purpose word input = .ok (passed, rest) ↔
      input = purpose ++ u32ToBeBytes word ++ rest := by
  simp only [expectPrefix, read_bind_eq_ok, take_eq_ok, check_eq_ok, require_eq_ok, readU32_eq_ok]
  constructor
  · rintro ⟨_, _, ⟨_, rfl⟩, _, _, ⟨rfl, rfl⟩, _, _, rfl, rfl, rfl⟩
    rw [append_assoc]
  · rintro rfl
    exact ⟨purpose, _, ⟨sized, by rw [append_assoc]⟩, (), _, ⟨rfl, rfl⟩, word, rest, rfl, rfl, rfl⟩

theorem completeComponents_eq_ok (sized : purpose.length = 2) :
    completeComponents true bytes purpose owner.get schemas = .ok values ↔
      AllSatisfy schemas values ∧ bytes = (KeyBuilder.new purpose owner).bytes ++
        encodeAll schemas values := by
  simp only [completeComponents, bind_eq_ok, require_eq_ok, Prod.exists, expectPrefix_eq_ok sized,
    readComponents_eq_ok, exists_const, Except.ok.injEq, KeyBuilder.new]
  constructor
  · rintro ⟨_, rfl, kept, _, ⟨satisfied, rfl⟩, rfl, rfl⟩
    exact ⟨satisfied, by rw [append_nil]⟩
  · rintro ⟨satisfied, rfl⟩
    exact ⟨_, rfl, values, [], ⟨satisfied, by rw [append_nil]⟩, rfl, rfl⟩

theorem completeComponents_dropped :
    (∃ dropped, completeComponents false bytes purpose owner.get schemas = .ok dropped) ↔
      ∃ values, completeComponents true bytes purpose owner.get schemas = .ok values := by
  simp only [completeComponents, bind_eq_ok, require_eq_ok, Prod.exists, readComponents_dropped,
    exists_const, Except.ok.injEq]
  constructor
  · rintro ⟨_, passed, body, first, _, rest, ⟨_, kept, read⟩, ended, _⟩
    exact ⟨kept, passed, body, first, kept, rest, read, ended, rfl⟩
  · rintro ⟨kept, passed, body, first, _, rest, read, ended, _⟩
    exact ⟨[], passed, body, first, [], rest, ⟨rfl, _, read⟩, ended, rfl⟩

theorem length_new (sized : purpose.length = 2) :
    (KeyBuilder.new purpose owner).bytes.length = 6 := by
  simp [KeyBuilder.new, u32ToBeBytes, sized]

/-- A complete key of values of the right types, whose bound the schema has checked. -/
theorem append_eq_ok_iff (sized : purpose.length = 2)
    (bounded : 6 + (schemas.map (·.maximumPayloadBytes)).sum ≤ maxKeyBytes) {key : KeyBuilder} :
    appendComponents (KeyBuilder.new purpose owner) schemas values = .ok key ↔
      completeComponents true key.bytes purpose owner.get schemas = .ok values := by
  have started : (KeyBuilder.new purpose owner).bytes.length = 6 := length_new sized
  rw [appendComponents_eq_ok (by rw [started]; decide), completeComponents_eq_ok sized]
  refine and_congr_right fun satisfied => and_iff_right ?_
  have short := length_encodeAll_le satisfied
  rw [started]
  omega

end Complete

inductive Accepted : KeySchema → Prop where
  | new {purpose : KeyPurpose} {components : List KeyComponentSchema} {schema : KeySchema}
      (built : KeySchema.new purpose components = .ok schema) : Accepted schema
  | index {indexId : IndexId} {entityType : EntityTypeId} {components : List KeyComponentSchema}
      {entity schema : KeySchema} (owner : Accepted entity)
      (built : KeySchema.index indexId entityType components entity = .ok schema) : Accepted schema

section Schemas

variable {schema : KeySchema}

def componentMaximum (components : List KeyComponentSchema) : Nat :=
  6 + (components.map (·.maximumPayloadBytes)).sum

variable {purpose : KeyPurpose} {components : List KeyComponentSchema}

theorem new_eq_ok (built : KeySchema.new purpose components = .ok schema) :
    schema = .mk purpose components none (componentMaximum components) ∧
      componentMaximum components ≤ maxKeyBytes ∧
      ∀ indexId entityType, purpose ≠ .index indexId entityType := by
  cases purpose with
  | index indexId entityType => simp [KeySchema.new] at built
  | _ =>
    simp only [KeySchema.new, completeKeyMaximum, checkedLen, bind_eq_ok,
      require_eq_ok, exists_const, Except.ok.injEq] at built
    obtain ⟨_, _, _, _, ⟨small, rfl⟩, rfl⟩ := built
    exact ⟨rfl, small, by simp⟩

variable {indexId : IndexId}
variable {entityType : EntityTypeId} {entity : KeySchema}

theorem index_eq_ok (built : KeySchema.index indexId entityType components entity = .ok schema) :
    schema = .mk (.index indexId entityType) components (some entity)
        (componentMaximum components + 4 + entity.maximumEncodedBytes) ∧
      componentMaximum components + 4 + entity.maximumEncodedBytes ≤ maxKeyBytes ∧
      entity.purpose = .entity entityType := by
  simp only [KeySchema.index, completeKeyMaximum, checkedLen, bind_eq_ok,
    require_eq_ok, exists_const, Except.ok.injEq] at built
  obtain ⟨owned, _, _, _, ⟨small, rfl⟩, rfl⟩ := built
  exact ⟨rfl, small, owned⟩

/-- The components alone never exceed the key bound. -/
theorem Accepted.components_bounded (accepted : Accepted schema) :
    6 + (schema.components.map (·.maximumPayloadBytes)).sum ≤ maxKeyBytes := by
  cases accepted with
  | new built =>
    obtain ⟨rfl, small, _⟩ := new_eq_ok built
    exact small
  | index owner built =>
    obtain ⟨rfl, small, _⟩ := index_eq_ok built
    simp only [componentMaximum, KeySchema.components] at small ⊢
    omega

/-- An index schema has the accepted schema of its entity, and room for that entity's keys. -/
theorem Accepted.nested (accepted : Accepted schema)
    (isIndex : schema.purpose = .index indexId entityType) :
    ∃ entity, schema.entityKeySchema = some entity ∧ Accepted entity ∧
      entity.purpose = .entity entityType ∧
      componentMaximum schema.components + 4 + componentMaximum entity.components ≤
        maxKeyBytes := by
  cases accepted with
  | new built =>
    obtain ⟨rfl, _, notIndex⟩ := new_eq_ok built
    exact absurd isIndex (notIndex indexId entityType)
  | @index builtId builtType components entity _ owner built =>
    obtain ⟨rfl, small, owned⟩ := index_eq_ok built
    cases isIndex
    refine ⟨entity, rfl, owner, owned, ?_⟩
    cases owner with
    | new made =>
      obtain ⟨rfl, _, _⟩ := new_eq_ok made
      exact small
    | index _ made =>
      obtain ⟨rfl, _, _⟩ := index_eq_ok made
      cases owned

theorem entityOwner_eq_ok {owner : EntityTypeId} :
    entityOwner purpose = .ok owner ↔ purpose = .entity owner := by
  cases purpose <;> simp [entityOwner]

variable {owner : AggregateTypeId}

theorem partitionOwner_eq_ok : partitionOwner purpose = .ok owner ↔ purpose = .partition owner := by
  cases purpose <;> simp [partitionOwner]

theorem conflictOwner_eq_ok : conflictOwner purpose = .ok owner ↔ purpose = .conflict owner := by
  cases purpose <;> simp [conflictOwner]

theorem indexOwner_eq_ok :
    indexOwner purpose = .ok indexId ↔ ∃ entityType, purpose = .index indexId entityType := by
  cases purpose <;> simp [indexOwner]

variable {values : List CanonicalValue}

/-- Writing components behind an envelope and wrapping the bytes is reading the wrapped bytes. -/
theorem wrapped_iff {Key : Type} (asBytes : Key → Bytes) (wrap : Bytes → Key)
    (wrapped : ∀ key, wrap (asBytes key) = key) (unwrapped : ∀ bytes, asBytes (wrap bytes) = bytes)
    (accepted : Accepted schema) {purpose : Bytes} (sized : purpose.length = 2)
    {owner : NonZeroU32} {key : Key} :
    (∃ built, appendComponents (KeyBuilder.new purpose owner) schema.components values = .ok built ∧
      wrap built.bytes = key) ↔
      completeComponents true (asBytes key) purpose owner.get schema.components = .ok values := by
  constructor
  · rintro ⟨built, appended, rfl⟩
    rw [unwrapped]
    exact (append_eq_ok_iff sized accepted.components_bounded).mp appended
  · intro decoded
    exact ⟨⟨asBytes key⟩, (append_eq_ok_iff sized accepted.components_bounded).mpr decoded,
      wrapped key⟩

variable {key : EntityKey}

theorem encodeEntity_eq_ok (accepted : Accepted schema) :
    schema.encodeEntity values = .ok key ↔ schema.decodeEntity key = .ok values := by
  simp only [encodeEntity, decodeEntity, bind_eq_ok, Except.ok.injEq]
  exact exists_congr fun owner => and_congr_right fun _ =>
    wrapped_iff EntityKey.asBytes EntityKey.mk (fun _ => rfl) (fun _ => rfl) accepted rfl

theorem encodePartition_eq_ok (accepted : Accepted schema) {key : PartitionKey} :
    schema.encodePartition values = .ok key ↔ schema.decodePartition key = .ok values := by
  simp only [encodePartition, decodePartition, bind_eq_ok, Except.ok.injEq]
  exact exists_congr fun owner => and_congr_right fun _ =>
    wrapped_iff PartitionKey.asBytes PartitionKey.mk (fun _ => rfl) (fun _ => rfl) accepted rfl

theorem encodeConflict_eq_ok (accepted : Accepted schema) {key : ConflictKey} :
    schema.encodeConflict values = .ok key ↔ schema.decodeConflict key = .ok values := by
  simp only [encodeConflict, decodeConflict, bind_eq_ok, Except.ok.injEq]
  exact exists_congr fun owner => and_congr_right fun _ =>
    wrapped_iff ConflictKey.asBytes ConflictKey.mk (fun _ => rfl) (fun _ => rfl) accepted rfl

theorem validateEntity_eq_ok :
    schema.validateEntity key = .ok () ↔ ∃ values, schema.decodeEntity key = .ok values := by
  simp only [validateEntity, decodeEntity, bind_eq_ok, and_true]
  rw [exists_comm]
  refine exists_congr fun owner => ?_
  rw [exists_and_left, completeComponents_dropped]

theorem decodeEntity_eq_ok :
    schema.decodeEntity key = .ok values ↔ ∃ owner, schema.purpose = .entity owner ∧
      AllSatisfy schema.components values ∧
        key.asBytes = (KeyBuilder.new entityKeyV1Purpose owner).bytes ++
        encodeAll schema.components values := by
  simp only [decodeEntity, bind_eq_ok, entityOwner_eq_ok]
  exact exists_congr fun owner => and_congr_right fun _ => completeComponents_eq_ok rfl

theorem decodeEntity_length (decoded : schema.decodeEntity key = .ok values) :
    key.asBytes.length ≤ componentMaximum schema.components := by
  obtain ⟨owner, _, satisfied, whole⟩ := decodeEntity_eq_ok.mp decoded
  rw [whole, length_append, length_new rfl, componentMaximum]
  exact Nat.add_le_add_left (length_encodeAll_le satisfied) 6

theorem u32ToBeBytes_ne_zero (owner : NonZeroU32) : u32ToBeBytes owner.get ≠ [0, 0, 0, 0] := by
  intro zero
  let bytes : ByteArrayOf 4 := ⟨u32ToBeBytes owner.get, length_beBytes 4 _⟩
  have same : u32FromBeBytes bytes = owner.get := u32FromBeBytes_eq.mpr rfl
  have none : u32FromBeBytes bytes = 0 := u32FromBeBytes_eq.mpr (zero.trans (by decide))
  exact owner.nonzero (same.symm.trans none)

/-- A key the decoder accepts has a well-formed envelope. -/
theorem fromBytes_of_decoded (accepted : Accepted schema)
    (decoded : schema.decodeEntity key = .ok values) :
    EntityKey.fromBytes key.asBytes = .ok key := by
  have short := (decodeEntity_length decoded).trans accepted.components_bounded
  obtain ⟨owner, _, _, whole⟩ := decodeEntity_eq_ok.mp decoded
  have envelope : key.asBytes = 0x45 :: 0x01 :: (u32ToBeBytes owner.get ++
      encodeAll schema.components values) := by
      rw [whole]
      simp [KeyBuilder.new, entityKeyV1Purpose]
  have identity : slice key.asBytes 2 typedKeyEnvelopeBytes = u32ToBeBytes owner.get := by
    rw [envelope]
    change (u32ToBeBytes owner.get ++ _).take 4 = _
    exact take_left' (length_beBytes 4 _)
  have long : typedKeyEnvelopeBytes ≤ key.asBytes.length := by
    rw [envelope]
    simp [typedKeyEnvelopeBytes, u32ToBeBytes]
  simp only [EntityKey.fromBytes, checkKeyBytes, bind_eq_ok, require_eq_ok, exists_const, identity]
  exact ⟨⟨short, long, by rw [envelope]; rfl, by rw [envelope]; rfl, u32ToBeBytes_ne_zero owner⟩,
    trivial⟩

/-- The bytes of an index entry: its components, and a complete key of its entity. -/
def IndexLayout (schema : KeySchema) (values : List CanonicalValue) (entityKey : EntityKey)
    (key : IndexEntryKey) : Prop :=
  ∃ indexId entityType entity, schema.purpose = .index indexId entityType ∧
    schema.entityKeySchema = some entity ∧ (∃ fields, entity.decodeEntity entityKey = .ok fields) ∧
    AllSatisfy schema.components values ∧
    key.asBytes = (KeyBuilder.new indexEntryKeyV1Purpose indexId).bytes ++
      encodeAll schema.components values ++
      (beBytes 4 entityKey.asBytes.length ++ entityKey.asBytes)

variable {entityKey : EntityKey} {key : IndexEntryKey}

theorem length_indexEntryKeyBuilder_le (indexId : IndexId) :
    (indexEntryKeyBuilder indexId).bytes.length ≤ maxKeyBytes := by
  rw [indexEntryKeyBuilder, length_new rfl]
  decide

theorem encodeIndex_eq_ok (accepted : Accepted schema) :
    schema.encodeIndex values entityKey = .ok key ↔ IndexLayout schema values entityKey key := by
  simp only [encodeIndex, nestedSchema, finishIndexEntry, bind_eq_ok, okOr_eq_ok,
    indexOwner_eq_ok, mapError_eq_ok, appendComponents_eq_ok (length_indexEntryKeyBuilder_le _),
    pushBytes_eq_ok, Except.ok.injEq, IndexLayout]
  constructor
  · rintro ⟨indexId, ⟨entityType, isIndex⟩, entity, nested, fields, decoded, leading,
      ⟨satisfied, _, front⟩, entry, ⟨_, _, whole⟩, rfl⟩
    refine ⟨indexId, entityType, entity, isIndex, nested, ⟨fields, decoded⟩, satisfied, ?_⟩
    change entry.bytes = _
    rw [whole, front]
    rfl
  · rintro ⟨indexId, entityType, entity, isIndex, nested, ⟨fields, decoded⟩, satisfied, whole⟩
    obtain ⟨_, sameNested, _, _, room⟩ := accepted.nested isIndex
    obtain rfl : _ = entity := Option.some.inj (sameNested.symm.trans nested)
    have entityShort := decodeEntity_length decoded
    have valuesShort := length_encodeAll_le satisfied
    have front : (indexEntryKeyBuilder indexId).bytes.length = 6 := length_new rfl
    simp only [componentMaximum] at room entityShort
    have limit : maxKeyBytes = 4096 := rfl
    refine ⟨indexId, ⟨entityType, isIndex⟩, _, nested, fields, decoded,
      ⟨(indexEntryKeyBuilder indexId).bytes ++ encodeAll schema.components values⟩,
      ⟨satisfied, by omega, rfl⟩, ⟨key.asBytes⟩, ⟨by omega, ?_, whole⟩, rfl⟩
    simp only [length_append, length_beBytes]
    omega

theorem readNested_eq_ok (nested : schema.entityKeySchema = some entity)
    (accepted : Accepted entity) :
    schema.readNested bytes = .ok entityKey ↔
      (∃ fields, entity.decodeEntity entityKey = .ok fields) ∧
      bytes = beBytes 4 entityKey.asBytes.length ++ entityKey.asBytes := by
  simp only [readNested, nestedSchema, bind_eq_ok, Prod.exists, okOr_eq_ok, nested,
    Option.some.injEq, mapError_eq_ok, require_eq_ok, exists_const, Except.ok.injEq]
  constructor
  · rintro ⟨length, middle, first, held, _, second, rfl, ⟨entityBytes⟩, made, _, rfl, _, valid, rfl⟩
    obtain ⟨_, whole⟩ := readSized_eq_ok.mp ⟨length, middle, first, second⟩
    obtain ⟨_, rfl⟩ : _ ∧ held = entityBytes := by
      simpa [EntityKey.fromBytes, bind_eq_ok, Except.ok.injEq] using made
    exact ⟨validateEntity_eq_ok.mp valid, by rw [whole, append_nil]⟩
  · rintro ⟨⟨fields, decoded⟩, whole⟩
    have short := (decodeEntity_length decoded).trans accepted.components_bounded
    have fits : entityKey.asBytes.length < 2 ^ 32 := lt_of_le_of_lt short (by decide)
    obtain ⟨length, middle, first, second⟩ := readSized_eq_ok.mpr
      ⟨fits, whole.trans (append_nil _).symm⟩
    exact ⟨length, middle, first, _, [], second, rfl, entityKey,
      fromBytes_of_decoded accepted decoded,
      _, rfl, (), validateEntity_eq_ok.mpr ⟨fields, decoded⟩, rfl⟩

theorem walkIndex_eq_ok (accepted : Accepted schema) :
    schema.walkIndex true key = .ok (values, entityKey) ↔
      IndexLayout schema values entityKey key := by
  simp only [walkIndex, bind_eq_ok, Prod.exists, indexOwner_eq_ok,
    expectPrefix_eq_ok (show indexEntryKeyV1Purpose.length = 2 from rfl), readComponents_eq_ok,
    exists_const, Except.ok.injEq, Prod.mk.injEq, IndexLayout]
  constructor
  · rintro ⟨indexId, ⟨entityType, isIndex⟩, _, front, _, _, ⟨satisfied, rfl⟩, _, read, rfl, rfl⟩
    obtain ⟨entity, nested, owned, _, _⟩ := accepted.nested isIndex
    obtain ⟨decoded, rfl⟩ := (readNested_eq_ok nested owned).mp read
    refine ⟨indexId, entityType, entity, isIndex, nested, decoded, satisfied, ?_⟩
    rw [front, KeyBuilder.new]
    simp only [append_assoc]
  · rintro ⟨indexId, entityType, entity, isIndex, nested, decoded, satisfied, whole⟩
    obtain ⟨_, sameNested, owned, _, _⟩ := accepted.nested isIndex
    obtain rfl : _ = entity := Option.some.inj (sameNested.symm.trans nested)
    refine ⟨indexId, ⟨entityType, isIndex⟩, _, ?_, values, _, ⟨satisfied, rfl⟩, entityKey,
      (readNested_eq_ok nested owned).mpr ⟨decoded, rfl⟩, rfl, rfl⟩
    rw [whole, KeyBuilder.new]
    simp only [append_assoc]

theorem decodeIndex_eq_ok (accepted : Accepted schema) :
    schema.decodeIndex key = .ok ⟨values, entityKey⟩ ↔ IndexLayout schema values entityKey key := by
  rw [← walkIndex_eq_ok accepted]
  simp only [decodeIndex, bind_eq_ok, Prod.exists, Except.ok.injEq, DecodedIndexKey.mk.injEq]
  exact ⟨fun ⟨_, _, walked, sameValues, sameKey⟩ => sameValues ▸ sameKey ▸ walked,
    fun walked => ⟨values, entityKey, walked, rfl, rfl⟩⟩

theorem decodeIndexEntityKey_eq_ok : schema.decodeIndexEntityKey key = .ok entityKey ↔
      ∃ values, schema.decodeIndex key = .ok ⟨values, entityKey⟩ := by
  simp only [decodeIndexEntityKey, decodeIndex, walkIndex, bind_eq_ok,
    Prod.exists, readComponents_dropped, Except.ok.injEq, DecodedIndexKey.mk.injEq, Prod.mk.injEq]
  constructor
  · rintro ⟨_, _, ⟨indexId, isIndex, passed, body, front, _, rest, ⟨_, kept, read⟩, _, nested, rfl,
      rfl⟩, rfl⟩
    exact ⟨kept, kept, _, ⟨indexId, isIndex, passed, body, front, kept, rest, read, _, nested, rfl,
      rfl⟩, rfl, rfl⟩
  · rintro ⟨_, _, _, ⟨indexId, isIndex, passed, body, front, kept, rest, read, _, nested, rfl, rfl⟩,
      rfl, rfl⟩
    exact ⟨[], _, ⟨indexId, isIndex, passed, body, front, [], rest, ⟨rfl, kept, read⟩,
      _, nested, rfl, rfl⟩, rfl⟩

variable {start : IndexScanPrefix}

theorem encodeIndexPrefix_eq_ok (accepted : Accepted schema) {front : List CanonicalValue} :
    schema.encodeIndexPrefix front = .ok start ↔
      ∃ indexId entityType, schema.purpose = .index indexId entityType ∧
        front.length ≤ schema.components.length ∧
          AllSatisfy (schema.components.take front.length) front ∧
        start = ⟨indexId, front.length, (KeyBuilder.new indexEntryKeyV1Purpose indexId).bytes ++
          encodeAll (schema.components.take front.length) front⟩ := by
  simp only [encodeIndexPrefix, bind_eq_ok, indexOwner_eq_ok, require_eq_ok, exists_const,
    appendComponents_eq_ok (length_indexEntryKeyBuilder_le _), Except.ok.injEq]
  constructor
  · rintro ⟨indexId, ⟨entityType, isIndex⟩, short, key, ⟨satisfied, _, whole⟩, rfl⟩
    exact ⟨indexId, entityType, isIndex, short, satisfied, by rw [whole]; rfl⟩
  · rintro ⟨indexId, entityType, isIndex, short, satisfied, rfl⟩
    refine ⟨indexId, ⟨entityType, isIndex⟩, short, ⟨_⟩, ⟨satisfied, ?_, rfl⟩, rfl⟩
    have bounded := accepted.components_bounded
    have leading := length_encodeAll_le satisfied
    have part : ((schema.components.take front.length).map (·.maximumPayloadBytes)).sum ≤
        (schema.components.map (·.maximumPayloadBytes)).sum :=
      ((take_sublist _ _).map _).sum_le_sum (by simp)
    rw [indexEntryKeyBuilder, length_new rfl]
    omega

/-- A scan prefix starts exactly the entries whose values start with its values. -/
theorem indexPrefix_iff (accepted : Accepted schema)
    (scanned : schema.encodeIndexPrefix front = .ok start)
    (encoded : schema.encodeIndex values entityKey = .ok key) :
    start.asBytes <+: key.asBytes ↔ front <+: values := by
  obtain ⟨indexId, entityType, isIndex, short, leading, rfl⟩ :=
    (encodeIndexPrefix_eq_ok accepted).mp scanned
  obtain ⟨sameId, sameType, entity, isSame, _, _, satisfied, whole⟩ :=
    (encodeIndex_eq_ok accepted).mp encoded
  rw [isIndex] at isSame
  cases isSame
  rw [whole, append_assoc, prefix_append_right_inj]
  exact encodeAll_isPrefix_iff leading satisfied

/-- Values of the right types always have a complete key. -/
theorem exists_complete (accepted : Accepted schema)
    (satisfied : AllSatisfy schema.components values) :
    (∀ owner, schema.purpose = .entity owner → ∃ key, schema.encodeEntity values = .ok key) ∧
    (∀ owner, schema.purpose = .partition owner → ∃ key, schema.encodePartition values = .ok key) ∧
    (∀ owner, schema.purpose = .conflict owner →
      ∃ key, schema.encodeConflict values = .ok key) := by
  have held {purpose : Bytes} (sized : purpose.length = 2) (owner : NonZeroU32) :
      ∃ bytes, completeComponents true bytes purpose owner.get schema.components = .ok values :=
    ⟨_, (completeComponents_eq_ok sized).mpr ⟨satisfied, rfl⟩⟩
  refine ⟨?_, ?_, ?_⟩
  · intro owner isEntity
    obtain ⟨bytes, read⟩ := held (show entityKeyV1Purpose.length = 2 from rfl) owner
    refine ⟨⟨bytes⟩, (encodeEntity_eq_ok accepted).mpr ?_⟩
    rw [decodeEntity, entityOwner_eq_ok.mpr isEntity, ok_bind, read]
  · intro owner isPartition
    obtain ⟨bytes, read⟩ := held (show partitionKeyV1Purpose.length = 2 from rfl) owner
    refine ⟨⟨bytes⟩, (encodePartition_eq_ok accepted).mpr ?_⟩
    rw [decodePartition, partitionOwner_eq_ok.mpr isPartition, ok_bind, read]
  · intro owner isConflict
    obtain ⟨bytes, read⟩ := held (show conflictKeyV1Purpose.length = 2 from rfl) owner
    refine ⟨⟨bytes⟩, (encodeConflict_eq_ok accepted).mpr ?_⟩
    rw [decodeConflict, conflictOwner_eq_ok.mpr isConflict, ok_bind, read]

/-- Every accepted schema writes and reads the same keys: what is encoded decodes to the values it
was made of, and what decodes is the encoding of its values. The walks that drop the values
accept the same keys as those that keep them, a scan prefix starts exactly the entries whose
values it leads, and values of the right types always fit the key bound. -/
theorem accepted_schema_codec (schema : KeySchema) (accepted : Accepted schema) :
    ((∀ values key, schema.encodeEntity values = .ok key ↔ schema.decodeEntity key = .ok values) ∧
      (∀ values key, schema.encodePartition values = .ok key ↔
      schema.decodePartition key = .ok values) ∧
      (∀ values key, schema.encodeConflict values = .ok key ↔
      schema.decodeConflict key = .ok values) ∧
      (∀ values entityKey key, schema.encodeIndex values entityKey = .ok key ↔
        schema.decodeIndex key = .ok ⟨values, entityKey⟩)) ∧
    (∀ key, schema.validateEntity key = .ok () ↔ ∃ values, schema.decodeEntity key = .ok values) ∧
    (∀ key entityKey, schema.decodeIndexEntityKey key = .ok entityKey ↔
      ∃ values, schema.decodeIndex key = .ok ⟨values, entityKey⟩) ∧
    (∀ front values entityKey start key, schema.encodeIndexPrefix front = .ok start →
      schema.encodeIndex values entityKey = .ok key →
      (start.asBytes <+: key.asBytes ↔ front <+: values)) ∧
    (∀ values, AllSatisfy schema.components values →
      (∀ owner, schema.purpose = .entity owner → ∃ key, schema.encodeEntity values = .ok key) ∧
      (∀ owner, schema.purpose = .partition owner → ∃ key,
      schema.encodePartition values = .ok key) ∧
      (∀ owner, schema.purpose = .conflict owner → ∃ key, schema.encodeConflict values = .ok key) ∧
      (∀ indexId entityType entity entityKey fields, schema.purpose = .index indexId entityType →
        schema.entityKeySchema = some entity → entity.decodeEntity entityKey = .ok fields →
        ∃ key, schema.encodeIndex values entityKey = .ok key)) ∧
    (∀ indexId entityType front, schema.purpose = .index indexId entityType →
      AllSatisfy (schema.components.take front.length) front →
      ∃ start, schema.encodeIndexPrefix front = .ok start) := by
  refine ⟨⟨fun _ _ => encodeEntity_eq_ok accepted, fun _ _ => encodePartition_eq_ok accepted,
    fun _ _ => encodeConflict_eq_ok accepted, fun _ _ _ =>
      (encodeIndex_eq_ok accepted).trans (decodeIndex_eq_ok accepted).symm⟩,
    fun _ => validateEntity_eq_ok, fun _ _ => decodeIndexEntityKey_eq_ok,
    fun _ _ _ _ _ => indexPrefix_iff accepted, ?_, ?_⟩
  · intro values satisfied
    obtain ⟨entity, partition, conflict⟩ := exists_complete accepted satisfied
    refine ⟨entity, partition, conflict, ?_⟩
    intro indexId entityType nested entityKey fields isIndex owned decoded
    exact ⟨⟨_⟩, (encodeIndex_eq_ok accepted).mpr
      ⟨indexId, entityType, nested, isIndex, owned, ⟨fields, decoded⟩, satisfied, rfl⟩⟩
  · intro indexId entityType front isIndex leading
    have short : front.length ≤ schema.components.length := by
      have counted := leading.length_eq
      rw [length_take] at counted
      omega
    exact ⟨_, (encodeIndexPrefix_eq_ok accepted).mpr
      ⟨indexId, entityType, isIndex, short, leading, rfl⟩⟩

end Schemas

namespace Sample

def owner : NonZeroU32 := .lit 1

theorem number_bounded : authoritativeComponentMaximum .canonical .u64 = .ok 8 := rfl

def number : KeyComponentSchema := ⟨.u64, [], .canonical, 8, number_bounded⟩

def text : KeyComponentSchema := ⟨.string 8, [], .canonical, 12, rfl⟩

def suffix : KeyComponentSchema := ⟨.bytes 4, [], .orderedBytes, 10, rfl⟩

def entity : KeySchema := .mk (.entity owner) [number] none 14

def entry : KeySchema := .mk (.index owner owner) [text, suffix] (some entity) 46

theorem accepted_entity : Accepted entity :=
  .new (show KeySchema.new (.entity owner) [number] = .ok entity from rfl)

theorem accepted_entry : Accepted entry := .index accepted_entity
    (show KeySchema.index owner owner [text, suffix] entity = .ok entry from rfl)

def name : CanonicalValue := .string ⟨"", by decide⟩

def zero : CanonicalValue := .bytes ⟨[0], by decide⟩

end Sample

open Sample

/-- An entry of an empty text and a zero byte is written, read back and led by its text alone. -/
theorem accepted_schema_codec_sample : ∃ entityKey key start,
    Sample.entity.encodeEntity [.u64 7] = .ok entityKey ∧
    Sample.entry.encodeIndex [Sample.name, Sample.zero] entityKey = .ok key ∧
    Sample.entry.decodeIndex key = .ok ⟨[Sample.name, Sample.zero], entityKey⟩ ∧
    Sample.entry.encodeIndexPrefix [Sample.name] = .ok start ∧ start.asBytes <+: key.asBytes := by
  obtain ⟨⟨entityTrip, _⟩, _, _, _, entityFits, _⟩ :=
    accepted_schema_codec entity accepted_entity
  obtain ⟨⟨_, _, _, roundTrip⟩, _, _, leads, fits, scans⟩ :=
    accepted_schema_codec entry accepted_entry
  obtain ⟨entityKey, encodedEntity⟩ := (entityFits [.u64 7] (.cons rfl .nil)).1 owner rfl
  obtain ⟨key, encoded⟩ := (fits [name, zero] (.cons rfl (.cons rfl .nil))).2.2.2
    owner owner entity entityKey [.u64 7] rfl rfl
    ((entityTrip _ _).mp encodedEntity)
  obtain ⟨start, scanned⟩ := scans owner owner [name] rfl (.cons rfl .nil)
  exact ⟨entityKey, key, start, encodedEntity, encoded, (roundTrip _ _ _).mp encoded, scanned,
    (leads _ _ _ _ _ scanned encoded).mpr ⟨[zero], rfl⟩⟩

end KeySchemaCodec
