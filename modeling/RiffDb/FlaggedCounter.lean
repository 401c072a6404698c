import Mathlib.Tactic
import Mathlib.Data.Nat.Bitwise

/-!
# A counter and two flags in one word

The two highest bits of a word are flags and the rest is a counter. `width` is the number of bits
of the counter. The bit operations on such a word act on the parts one by one as long as the
counter does not overflow.
-/

namespace FlaggedCounter

variable {width : Nat}

def pack (width : Nat) (high low : Bool) (count : Nat) : Nat :=
  high.toNat * 2 ^ (width + 1) + low.toNat * 2 ^ width + count

section Parts

variable {high low : Bool} {count : Nat}

section

variable (bounded : count < 2 ^ width)

include bounded

theorem pack_div : pack width high low count / 2 ^ width = high.toNat * 2 + low.toNat := by
  have split : pack width high low count = count + 2 ^ width * (high.toNat * 2 + low.toNat) := by
    rw [pack, pow_succ]
    ring
  rw [split, Nat.add_mul_div_left _ _ (Nat.two_pow_pos width),
    Nat.div_eq_of_lt bounded, Nat.zero_add]

theorem pack_and_high : pack width high low count &&& 2 ^ (width + 1) ≠ 0 ↔ high = true := by
  have bit : (pack width high low count).testBit (width + 1) = high := by
    rw [Nat.testBit_eq_decide_div_mod_eq, pow_succ, ← Nat.div_div_eq_div_mul, pack_div bounded]
    cases high <;> cases low <;> rfl
  rw [Nat.and_two_pow, bit]
  cases high <;> simp

theorem pack_and_low : pack width high low count &&& 2 ^ width ≠ 0 ↔ low = true := by
  have bit : (pack width high low count).testBit width = low := by
    rw [Nat.testBit_eq_decide_div_mod_eq, pack_div bounded]
    cases high <;> cases low <;> rfl
  rw [Nat.and_two_pow, bit]
  cases low <;> simp

/-- The flags masked out. -/
theorem pack_and_count :
    pack width high low count &&& (2 ^ (width + 2) - 1 - (2 ^ (width + 1) ||| 2 ^ width)) =
      count := by
  have flags : 2 ^ (width + 1) ||| 2 ^ width = 2 ^ (width + 1) + 2 ^ width := by
    have less : 2 ^ width < 2 ^ (width + 1) := Nat.pow_lt_pow_right (by omega) (by omega)
    have joined := Nat.two_pow_add_eq_or_of_lt less 1
    rw [Nat.mul_one] at joined
    exact joined.symm
  have mask : 2 ^ (width + 2) - 1 - (2 ^ (width + 1) ||| 2 ^ width) = 2 ^ width - 1 := by
    rw [flags]
    have double : 2 ^ (width + 1) = 2 * 2 ^ width := by ring
    have fourfold : 2 ^ (width + 2) = 4 * 2 ^ width := by ring
    omega
  have split : pack width high low count = count + 2 ^ width * (high.toNat * 2 + low.toNat) := by
    rw [pack, pow_succ]
    ring
  rw [mask, Nat.and_two_pow_sub_one_eq_mod, split, Nat.add_mul_mod_self_left,
    Nat.mod_eq_of_lt bounded]

theorem pack_or_high :
    pack width false low count ||| 2 ^ (width + 1) = pack width true low count := by
  have below : pack width false low count < 2 ^ (width + 1) := by
    have double : 2 ^ (width + 1) = 2 * 2 ^ width := by ring
    cases low <;> simp only [pack, Bool.toNat_false, Bool.toNat_true] <;> omega
  have joined := Nat.two_pow_add_eq_or_of_lt below 1
  rw [Nat.mul_one, Nat.or_comm] at joined
  rw [← joined]
  simp only [pack, Bool.toNat_false, Bool.toNat_true]
  omega

/-- The high flag cleared. -/
theorem pack_and_not_high :
    pack width high low count &&& (2 ^ (width + 2) - 1 - 2 ^ (width + 1)) =
      pack width false low count := by
  have mask : 2 ^ (width + 2) - 1 - 2 ^ (width + 1) = 2 ^ (width + 1) - 1 := by
    have double : 2 ^ (width + 2) = 2 * 2 ^ (width + 1) := by ring
    omega
  have below : pack width false low count < 2 ^ (width + 1) := by
    have double : 2 ^ (width + 1) = 2 * 2 ^ width := by ring
    cases low <;> simp only [pack, Bool.toNat_false, Bool.toNat_true] <;> omega
  have split :
      pack width high low count = pack width false low count + 2 ^ (width + 1) * high.toNat := by
    simp only [pack, Bool.toNat_false]
    ring
  rw [mask, Nat.and_two_pow_sub_one_eq_mod, split, Nat.add_mul_mod_self_left,
    Nat.mod_eq_of_lt below]

end

/-- A wrapping decrement of a counter that is not zero. -/
theorem pack_sub_one (bounded : count + 1 < 2 ^ width) :
    (pack width high low (count + 1) + (2 ^ (width + 2) - 1)) % 2 ^ (width + 2) =
      pack width high low count := by
  have double : 2 ^ (width + 1) = 2 * 2 ^ width := by ring
  have fourfold : 2 ^ (width + 2) = 4 * 2 ^ width := by ring
  have below : pack width high low count < 2 ^ (width + 2) := by
    cases high <;> cases low <;> simp only [pack, Bool.toNat_false, Bool.toNat_true] <;> omega
  have wrapped : pack width high low (count + 1) + (2 ^ (width + 2) - 1) =
      pack width high low count + 2 ^ (width + 2) := by
    have positive := Nat.two_pow_pos (width + 2)
    simp only [pack]
    omega
  rw [wrapped, Nat.add_mod_right, Nat.mod_eq_of_lt below]

end Parts

end FlaggedCounter
