import Mathlib.Data.Vector.Basic
import Mathlib.Tactic

/-!
# Byte strings, big-endian words and fixed offsets

Wire formats are built by appending fields and read back by slicing at fixed offsets. They rest on
three facts: a big-endian word of a given width and its value determine each other, a slice of an
append is a slice of one side, and adjacent slices glue back together.
-/

namespace ByteWire

open List

abbrev Bytes := List UInt8

/-- A byte array of a fixed length. -/
abbrev ByteArrayOf (n : Nat) := List.Vector UInt8 n

/-- The `width` low-order bytes of `value`, most significant first. -/
def beBytes : Nat → Nat → Bytes
  | 0, _ => []
  | width + 1, value => UInt8.ofNat (value / 256 ^ width) :: beBytes width value

/-- The number a big-endian byte string denotes. -/
def beValue : Bytes → Nat
  | [] => 0
  | byte :: rest => byte.toNat * 256 ^ rest.length + beValue rest

@[simp] theorem length_beBytes (width value : Nat) : (beBytes width value).length = width := by
  induction width with
  | zero => rfl
  | succ width ih => simp only [beBytes, length_cons, ih]

theorem beValue_lt (bytes : Bytes) : beValue bytes < 256 ^ bytes.length := by
  induction bytes with
  | nil => simp [beValue]
  | cons byte rest ih =>
    have small : byte.toNat + 1 ≤ 256 := byte.toNat_lt
    calc beValue (byte :: rest)
        < byte.toNat * 256 ^ rest.length + 256 ^ rest.length := by
          simpa only [beValue] using Nat.add_lt_add_left ih _
      _ = (byte.toNat + 1) * 256 ^ rest.length := by ring
      _ ≤ 256 * 256 ^ rest.length := Nat.mul_le_mul_right _ small
      _ = 256 ^ (byte :: rest).length := by rw [length_cons, pow_succ']

theorem beBytes_mod (width value : Nat) :
    beBytes width (value % 256 ^ width) = beBytes width value := by
  suffices general : ∀ extra, beBytes width (value % 256 ^ (width + extra)) =
      beBytes width value by simpa using general 0
  intro extra
  induction width generalizing extra with
  | zero => rfl
  | succ width ih =>
    have head : value % 256 ^ (width + 1 + extra) / 256 ^ width % 256 =
        value / 256 ^ width % 256 := by
      rw [show 256 ^ (width + 1 + extra) = 256 ^ width * 256 ^ (1 + extra) by ring,
        Nat.mod_mul_right_div_self]
      exact Nat.mod_mod_of_dvd _ (dvd_pow_self 256 (by omega))
    have tail := ih (1 + extra)
    rw [← Nat.add_assoc] at tail
    simp only [beBytes, tail, List.cons.injEq, and_true]
    apply UInt8.toNat_inj.mp
    simpa only [UInt8.toNat_ofNat'] using head

theorem beValue_beBytes {width value : Nat} (fits : value < 256 ^ width) :
    beValue (beBytes width value) = value := by
  induction width generalizing value with
  | zero => simp only [pow_zero, Nat.lt_one_iff] at fits; simp [beBytes, beValue, fits]
  | succ width ih =>
    have quotient : value / 256 ^ width < 256 := by
      apply Nat.div_lt_of_lt_mul
      rwa [← pow_succ]
    have rest : beValue (beBytes width value) = value % 256 ^ width := by
      rw [← beBytes_mod]
      exact ih (Nat.mod_lt _ (by positivity))
    simp only [beBytes, beValue, length_beBytes, rest, UInt8.toNat_ofNat']
    rw [Nat.mod_eq_of_lt quotient]
    exact Nat.div_add_mod' value (256 ^ width)

theorem beBytes_beValue (bytes : Bytes) : beBytes bytes.length (beValue bytes) = bytes := by
  induction bytes with
  | nil => rfl
  | cons byte rest ih =>
    have small := beValue_lt rest
    have head : beValue (byte :: rest) / 256 ^ rest.length = byte.toNat := by
      simp only [beValue]
      rw [Nat.mul_comm, Nat.mul_add_div (by positivity), Nat.div_eq_of_lt small, Nat.add_zero]
    have tail : beValue (byte :: rest) % 256 ^ rest.length = beValue rest := by
      simp only [beValue]
      rw [Nat.mul_add_mod_self_right, Nat.mod_eq_of_lt small]
    rw [length_cons, beBytes, head, ← beBytes_mod, tail, ih]
    simp

variable {left right : Bytes}

theorem beValue_injective (same : left.length = right.length)
    (equal : beValue left = beValue right) : left = right := by
  rw [← beBytes_beValue left, ← beBytes_beValue right, same, equal]

/-- Two's complement: the low-order bytes of an integer. -/
def twosComplement (width : Nat) (value : Int) : Bytes := beBytes width (value % 256 ^ width).toNat

/-- The signed number a big-endian byte string denotes in two's complement. -/
def signedValue (bytes : Bytes) : Int := Int.bmod (beValue bytes) (256 ^ bytes.length)

@[simp] theorem length_twosComplement (width : Nat) (value : Int) :
    (twosComplement width value).length = width := length_beBytes width _

theorem signedValue_twosComplement (width : Nat) (value : Int) :
    signedValue (twosComplement width value) = Int.bmod value (256 ^ width) := by
  have nonneg : 0 ≤ value % 256 ^ width := Int.emod_nonneg value (by positivity)
  have small : (value % 256 ^ width).toNat < 256 ^ width := by
    zify
    rw [Int.toNat_of_nonneg nonneg]
    exact Int.emod_lt_of_pos value (by positivity)
  rw [signedValue, length_twosComplement, twosComplement, beValue_beBytes small,
    Int.toNat_of_nonneg nonneg]
  exact_mod_cast Int.emod_bmod value (256 ^ width)

theorem twosComplement_signedValue (bytes : Bytes) :
    twosComplement bytes.length (signedValue bytes) = bytes := by
  have small : (beValue bytes : Int) < (256 ^ bytes.length : Nat) := by
    exact_mod_cast beValue_lt bytes
  have back : signedValue bytes % 256 ^ bytes.length = beValue bytes := by
    have reduced : signedValue bytes % (256 ^ bytes.length : Nat) =
        (beValue bytes : Int) % (256 ^ bytes.length : Nat) := Int.bmod_emod
    rw [Int.emod_eq_of_lt (by positivity) small] at reduced
    exact_mod_cast reduced
  rw [twosComplement, back, Int.toNat_natCast, beBytes_beValue]

/-- The half-open range `start..stop` of a byte string. -/
def slice (bytes : Bytes) (start stop : Nat) : Bytes := (bytes.drop start).take (stop - start)

variable {bytes : Bytes}

theorem slice_append_slice {start middle stop : Nat} (first : start ≤ middle)
    (second : middle ≤ stop) :
    slice bytes start middle ++ slice bytes middle stop = slice bytes start stop := by
  have split : stop - start = (middle - start) + (stop - middle) := by omega
  rw [slice, slice, slice, split, take_add, drop_drop,
    show start + (middle - start) = middle by omega]

@[simp] theorem slice_zero_length (bytes : Bytes) : slice bytes 0 bytes.length = bytes := by
  simp [slice]

variable {start stop : Nat}

/-- A slice that starts beyond the left operand lies in the right operand. -/
theorem slice_append_right (past : left.length ≤ start) : slice (left ++ right) start stop =
      slice right (start - left.length) (stop - left.length) := by
  simp only [slice, drop_append, drop_eq_nil_of_le past, nil_append]
  congr 1
  omega

/-- A slice that stops inside the left operand ignores the right operand. -/
theorem slice_append_left (inside : stop ≤ left.length) :
    slice (left ++ right) start stop = slice left start stop := by
  by_cases ordered : start ≤ stop
  · simp only [slice, drop_append, take_append, length_drop]
    rw [show stop - start - (left.length - start) = 0 by omega]
    simp
  · simp [slice, show stop - start = 0 by omega]

theorem slice_whole {stop : Nat} (covers : bytes.length ≤ stop) : slice bytes 0 stop = bytes := by
  simp [slice, take_of_length_le covers]

/-- A slice of a slice is a slice of the whole. -/
theorem slice_slice {start stop first last : Nat} (inside : start + last ≤ stop) :
    slice (slice bytes start stop) first last = slice bytes (start + first) (start + last) := by
  simp only [slice, drop_take, drop_drop, take_take]
  congr 1
  omega

/-- One field of a string that is laid out as a list of fields. -/
theorem slice_flatten {parts : List Bytes} (index : Nat) {field : Bytes}
    (held : parts[index]? = some field) (before : ((parts.take index).map List.length).sum = start)
    (after : start + field.length = stop) : slice parts.flatten start stop = field := by
  obtain ⟨inside, rfl⟩ := List.getElem?_eq_some_iff.mp held
  have split : parts.flatten =
      (parts.take index).flatten ++ (parts[index] ++ (parts.drop (index + 1)).flatten) := by
    conv_lhs => rw [← take_append_drop index parts, drop_eq_getElem_cons inside]
    simp only [flatten_append, flatten_cons]
  have front : (parts.take index).flatten.length = start := by rw [length_flatten, before]
  rw [split, slice_append_right (by rw [front]), front, Nat.sub_self,
    slice_append_left (by omega), ← after, Nat.add_sub_cancel_left, slice_zero_length]

/-- `try_into` for a fixed-length array: the slice must have exactly that length. -/
def arrayOf (n : Nat) (bytes : Bytes) : Option (ByteArrayOf n) :=
  if same : bytes.length = n then some ⟨bytes, same⟩ else none

theorem arrayOf_eq_some {n : Nat} {array : ByteArrayOf n} :
    arrayOf n bytes = some array ↔ array.toList = bytes := by
  constructor
  · intro found
    unfold arrayOf at found
    split at found
    · cases found; rfl
    · cases found
  · rintro rfl
    simp only [arrayOf, List.Vector.toList_length, dite_true]
    rfl

@[simp] theorem arrayOf_toList {n : Nat} (array : ByteArrayOf n) :
    arrayOf n array.toList = some array := arrayOf_eq_some.mpr rfl

end ByteWire
