import RiffDb.ByteWire

/-!
# Encodings whose byte order is the order of the values

An ordered store compares keys byte by byte, so the encoding of a tuple must compare as the tuple
does. An encoding is ordered here if this holds in front of *any* two continuations; such encodings
compose by concatenation, and they are injective and prefix-free.

Words are written most significant byte first, signed words with their sign bit flipped, and byte
strings with zero bytes escaped and a terminator below every escaped byte.
-/

namespace OrderedBytes

open ByteWire List Ordering

universe u v

section Ordered

variable {α : Type u} {β : Type v}

/-- Two encoded values compare as the values, and equal ones leave the decision to what follows. -/
def Ordered (order : α → α → Ordering) (encode : α → Bytes) : Prop :=
  ∀ left right leftRest rightRest,
    compare (encode left ++ leftRest) (encode right ++ rightRest) =
      (order left right).then (compare leftRest rightRest)

variable {order : α → α → Ordering} {encode : α → Bytes}

section

variable (ordered : Ordered order encode)

include ordered

theorem Ordered.compare_eq (left right : α) :
    compare (encode left) (encode right) = order left right := by
  have decided := ordered left right [] []
  rw [append_nil, append_nil] at decided
  rw [decided, Std.compare_self, then_eq]

/-- An encoded value followed by anything splits in one way only. -/
theorem Ordered.split {left right : α} {leftRest rightRest : Bytes}
    (same : encode left ++ leftRest = encode right ++ rightRest) :
    order left right = .eq ∧ leftRest = rightRest := by
  have decided := ordered left right leftRest rightRest
  rw [same, Std.compare_self] at decided
  obtain ⟨values, rests⟩ := then_eq_eq.mp decided.symm
  exact ⟨values, Std.LawfulEqOrd.eq_of_compare rests⟩

/-- No encoding is a proper prefix of another. -/
theorem Ordered.eq_of_isPrefix {left right : α}
    (leads : encode left <+: encode right) : order left right = .eq := by
  obtain ⟨rest, whole⟩ := leads
  rw [← append_nil (encode right)] at whole
  exact (ordered.split whole).1

theorem Ordered.append {second : β → β → Ordering} {encodeSecond : β → Bytes}
    (orderedSecond : Ordered second encodeSecond) :
    Ordered (fun left right : α × β => (order left.1 right.1).then (second left.2 right.2))
      (fun pair => encode pair.1 ++ encodeSecond pair.2) := by
  intro left right leftRest rightRest
  rw [append_assoc, append_assoc, ordered, orderedSecond, then_assoc]

theorem Ordered.comap (view : β → α) :
    Ordered (fun left right => order (view left) (view right)) (fun value => encode (view value)) :=
  fun left right => ordered (view left) (view right)

end

end Ordered

variable {width : Nat} {α : Type u} {order : α → α → Ordering}

section Words

/-- Byte strings of one length decide among themselves before what follows them. -/
theorem compare_append_of_length {left right : Bytes} (same : left.length = right.length)
    (leftRest rightRest : Bytes) : compare (left ++ leftRest) (right ++ rightRest) =
      (compare left right).then (compare leftRest rightRest) := by
  induction left generalizing right with
  | nil =>
    rw [length_nil, eq_comm, length_eq_zero_iff] at same
    rw [same]
    rfl
  | cons first left ih =>
    cases right with
    | nil => exact absurd same (by simp)
    | cons second right =>
      rw [cons_append, cons_append, List.compare_cons_cons, List.compare_cons_cons,
        ih (by simpa using same), then_assoc]

theorem compare_byte {left right : Nat} (leftSmall : left < 256) (rightSmall : right < 256) :
    compare (UInt8.ofNat left) (UInt8.ofNat right) = compare left right := by
  have asNat (first second : UInt8) : compare first second = compare first.toNat second.toNat := by
    simp only [compare, compareOfLessAndEq, UInt8.lt_iff_toNat_lt, UInt8.toNat_inj]
  rw [asNat, UInt8.toNat_ofNat', UInt8.toNat_ofNat', Nat.mod_eq_of_lt leftSmall,
    Nat.mod_eq_of_lt rightSmall]

/-- The leading digits decide unless they are equal. -/
theorem compare_div_then_mod (left right : Nat) {base : Nat} (positive : 0 < base) :
    compare left right =
      (compare (left / base) (right / base)).then (compare (left % base) (right % base)) := by
  have leftSplit := Nat.div_add_mod left base
  have rightSplit := Nat.div_add_mod right base
  have leftBelow := Nat.mod_lt left positive
  have rightBelow := Nat.mod_lt right positive
  rcases Nat.lt_trichotomy (left / base) (right / base) with less | equal | greater
  · have wider : base * (left / base) + base ≤ base * (right / base) :=
      Nat.mul_le_mul_left base less
    rw [Nat.compare_eq_lt.mpr less, Nat.compare_eq_lt.mpr (by omega)]
    rfl
  · rw [equal, Std.compare_self, eq_then]
    rcases Nat.lt_trichotomy (left % base) (right % base) with less | same | greater
    · rw [Nat.compare_eq_lt.mpr less, Nat.compare_eq_lt.mpr (by rw [equal] at leftSplit; omega)]
    · rw [Nat.compare_eq_eq.mpr same, Nat.compare_eq_eq.mpr (by rw [equal] at leftSplit; omega)]
    · rw [Nat.compare_eq_gt.mpr greater, Nat.compare_eq_gt.mpr (by rw [equal] at leftSplit; omega)]
  · have wider : base * (right / base) + base ≤ base * (left / base) :=
      Nat.mul_le_mul_left base greater
    rw [Nat.compare_eq_gt.mpr greater, Nat.compare_eq_gt.mpr (by omega)]
    rfl

theorem compare_beBytes {left right : Nat} (leftFits : left < 256 ^ width)
    (rightFits : right < 256 ^ width) (leftRest rightRest : Bytes) :
    compare (beBytes width left ++ leftRest) (beBytes width right ++ rightRest) =
      (compare left right).then (compare leftRest rightRest) := by
  induction width generalizing left right with
  | zero =>
    simp only [pow_zero, Nat.lt_one_iff] at leftFits rightFits
    rw [leftFits, rightFits]
    rfl
  | succ width ih =>
    have positive : 0 < 256 ^ width := by positivity
    have leftHead : left / 256 ^ width < 256 := Nat.div_lt_of_lt_mul (by rwa [← pow_succ])
    have rightHead : right / 256 ^ width < 256 := Nat.div_lt_of_lt_mul (by rwa [← pow_succ])
    rw [beBytes, beBytes, cons_append, cons_append, List.compare_cons_cons,
      compare_byte leftHead rightHead, ← beBytes_mod width left, ← beBytes_mod width right,
      ih (Nat.mod_lt _ positive) (Nat.mod_lt _ positive), compare_div_then_mod left right positive,
      then_assoc]

/-- A word that numbers the values in their order encodes them in order. -/
theorem Ordered.word {number : α → Nat} (fits : ∀ value, number value < 256 ^ width)
    (numbered : ∀ left right, order left right = compare (number left) (number right)) :
    Ordered order (fun value => beBytes width (number value)) := by
  intro left right leftRest rightRest
  rw [compare_beBytes (fits left) (fits right), numbered]

/-- Behind a length, shorter strings sort first and equal lengths decide by content. -/
theorem compare_lengthPrefixed {left right : Bytes} (leftFits : left.length < 256 ^ width)
    (rightFits : right.length < 256 ^ width) (leftRest rightRest : Bytes) :
    compare (beBytes width left.length ++ left ++ leftRest)
        (beBytes width right.length ++ right ++ rightRest) =
      ((compare left.length right.length).then (compare left right)).then
        (compare leftRest rightRest) := by
  rw [append_assoc, append_assoc, compare_beBytes leftFits rightFits]
  cases decided : compare left.length right.length with
  | lt => rfl
  | gt => rfl
  | eq =>
    rw [eq_then, eq_then]
    exact compare_append_of_length (Nat.compare_eq_eq.mp decided) leftRest rightRest

end Words

section Signed

/-- The most significant bit is flipped in place. -/
def flipSign : Bytes → Bytes
  | [] => []
  | byte :: rest => (byte ^^^ 0x80) :: rest

theorem xor_signBit (byte : UInt8) : byte ^^^ 0x80 = byte + 0x80 := by
  have bits : ∀ word : BitVec 8, word ^^^ 0x80 = word + 0x80 := by decide +kernel
  exact UInt8.toBitVec_inj.mp (bits byte.toBitVec)

/-- Flipping the sign bit adds half the range, so the word counts up from the least value. -/
theorem flipSign_twosComplement {value : Int} (least : -(128 * 256 ^ width) ≤ value)
    (greatest : value < 128 * 256 ^ width) : flipSign (twosComplement (width + 1) value) =
      beBytes (width + 1) (value + 128 * 256 ^ width).toNat := by
  obtain ⟨raw, isRaw⟩ : ∃ raw : Nat, (raw : Int) = value % 256 ^ (width + 1) :=
    ⟨(value % 256 ^ (width + 1)).toNat, Int.toNat_of_nonneg (Int.emod_nonneg _ (by positivity))⟩
  have head : UInt8.ofNat (raw / 256 ^ width) ^^^ 0x80 =
      UInt8.ofNat ((raw + 128 * 256 ^ width) / 256 ^ width) := by
    rw [xor_signBit, Nat.add_mul_div_right _ _ (by positivity), UInt8.ofNat_add]
    rfl
  have tail : beBytes width raw = beBytes width (raw + 128 * 256 ^ width) := by
    rw [← beBytes_mod width (raw + 128 * 256 ^ width), Nat.add_mul_mod_self_right, beBytes_mod]
  have lifted : (raw + 128 * 256 ^ width) % 256 ^ (width + 1) =
      (value + 128 * 256 ^ width).toNat := by
    zify
    rw [isRaw, Int.emod_add_emod, Int.toNat_of_nonneg (by linarith)]
    apply Int.emod_eq_of_lt (by linarith)
    rw [pow_succ]
    linarith
  rw [twosComplement, ← isRaw, Int.toNat_natCast, beBytes, flipSign, head, tail]
  change beBytes (width + 1) (raw + 128 * 256 ^ width) = _
  rw [← beBytes_mod, lifted]

/-- Signed words with a flipped sign bit compare as the integers they hold. -/
theorem Ordered.signed {number : α → Int} (least : ∀ value, -(128 * 256 ^ width) ≤ number value)
    (greatest : ∀ value, number value < 128 * 256 ^ width)
    (numbered : ∀ left right, order left right = compare (number left) (number right)) :
    Ordered order (fun value => flipSign (twosComplement (width + 1) (number value))) := by
  have shifted : Ordered order
      (fun value => beBytes (width + 1) (number value + 128 * 256 ^ width).toNat) := by
    apply Ordered.word
    · intro value
      have low := least value
      have high := greatest value
      zify
      rw [Int.toNat_of_nonneg (by linarith), pow_succ]
      linarith
    · intro left right
      have leftLow := least left
      have rightLow := least right
      rw [numbered]
      rcases Int.lt_trichotomy (number left) (number right) with less | equal | greater
      · rw [Int.compare_eq_lt.mpr less, Nat.compare_eq_lt.mpr (by omega)]
      · rw [equal, Std.compare_self, Std.compare_self]
      · rw [Int.compare_eq_gt.mpr greater, Nat.compare_eq_gt.mpr (by omega)]
  intro left right leftRest rightRest
  dsimp only
  rw [flipSign_twosComplement (least left) (greatest left),
    flipSign_twosComplement (least right) (greatest right)]
  exact shifted left right leftRest rightRest

end Signed

section Escaped

def escapeByte (byte : UInt8) : Bytes := if byte = 0 then [0, 0xff] else [byte]

/-- Zero bytes are followed by `0xff`, so that a terminator of two zeros stays below them. -/
def escape (bytes : Bytes) : Bytes := bytes.flatMap escapeByte

@[simp] theorem escape_nil : escape [] = [] := rfl

theorem escape_cons (byte : UInt8) (rest : Bytes) :
    escape (byte :: rest) = escapeByte byte ++ escape rest := rfl

theorem length_escape (bytes : Bytes) :
    (escape bytes).length = bytes.length + bytes.countP (· == 0) := by
  induction bytes with
  | nil => rfl
  | cons byte rest ih =>
    rw [escape_cons, length_append, ih, length_cons, countP_cons]
    by_cases zero : byte = 0 <;> simp [escapeByte, zero] <;> omega

theorem compare_zero {byte : UInt8} (nonzero : byte ≠ 0) : compare 0 byte = .lt :=
  Std.compare_eq_lt.mpr (UInt8.pos_iff_ne_zero.mpr nonzero)

theorem compare_escapeByte (left right : UInt8) (leftRest rightRest : Bytes) :
    compare (escapeByte left ++ leftRest) (escapeByte right ++ rightRest) =
      (compare left right).then (compare leftRest rightRest) := by
  by_cases leftZero : left = 0
  · by_cases rightZero : right = 0
    · simp [escapeByte, leftZero, rightZero, List.compare_cons_cons]
    · simp [escapeByte, leftZero, rightZero, List.compare_cons_cons, compare_zero rightZero]
  · have above : compare left 0 = .gt := Std.OrientedCmp.gt_iff_lt.mpr (compare_zero leftZero)
    by_cases rightZero : right = 0 <;>
      simp [escapeByte, leftZero, rightZero, List.compare_cons_cons, above]

/-- A terminator sorts before the encoding of any further byte. -/
theorem compare_terminator_escapeByte (byte : UInt8) (leftRest rightRest : Bytes) :
    compare (0 :: 0 :: leftRest) (escapeByte byte ++ rightRest) = .lt := by
  by_cases zero : byte = 0
  · simp [escapeByte, zero, List.compare_cons_cons]
    rfl
  · simp [escapeByte, zero, List.compare_cons_cons, compare_zero zero]

/-- Escaped and terminated byte strings compare as the strings, a prefix first. -/
theorem ordered_escape : Ordered compare (fun bytes => escape bytes ++ [0, 0]) := by
  intro left
  induction left with
  | nil =>
    intro right leftRest rightRest
    cases right with
    | nil => simp [List.compare_cons_cons]
    | cons byte rest =>
      simp only [escape_cons, escape_nil, nil_append, append_assoc, cons_append]
      rw [compare_terminator_escapeByte, List.compare_nil_cons]
      rfl
  | cons first rest ih =>
    intro right leftRest rightRest
    cases right with
    | nil =>
      simp only [escape_cons, escape_nil, nil_append, append_assoc, cons_append]
      rw [Std.OrientedOrd.eq_swap, compare_terminator_escapeByte, List.compare_cons_nil]
      rfl
    | cons second others =>
      have later := ih others leftRest rightRest
      simp only [append_assoc] at later
      simp only [escape_cons, append_assoc]
      rw [compare_escapeByte, later, List.compare_cons_cons, then_assoc]

/-- The escaped form without terminator leads exactly the strings it starts. -/
theorem escape_isPrefix_iff (lead bytes rest : Bytes) :
    escape lead <+: escape bytes ++ [0, 0] ++ rest ↔ lead <+: bytes := by
  induction lead generalizing bytes with
  | nil => simp
  | cons first lead ih =>
    cases bytes with
    | nil => by_cases zero : first = 0 <;> simp [escape_cons, escapeByte, zero]
    | cons byte bytes =>
      have deeper := ih bytes
      by_cases same : first = byte
      · subst same
        simp only [escape_cons, append_assoc, prefix_append_right_inj,
          cons_prefix_cons, true_and] at deeper ⊢
        exact deeper
      · by_cases zero : first = 0
        · subst zero
          simp [escape_cons, escapeByte, Ne.symm same, same]
        · by_cases other : byte = 0 <;> simp [escape_cons, escapeByte, zero, other, same]

end Escaped

end OrderedBytes
