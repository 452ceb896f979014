import Mathlib.Data.Nat.Bitwise

/-!
# Binary logarithms

What a search for the leading one of a number rests on: how the logarithm of an upper part
relates to the whole, that it grows with the number, and what a mask of ones sees of it.
-/

namespace Olimex2378.Log2

/-- The logarithm of a number's upper part is smaller by the number of bits cut off. -/
theorem log2_div_two_pow {n s : Nat} (large : 2 ^ s ≤ n) :
    (n / 2 ^ s).log2 = n.log2 - s := by
  have positive : 0 < 2 ^ s := Nat.two_pow_pos s
  have nonzero : n ≠ 0 := by omega
  have above : s ≤ n.log2 := (Nat.le_log2 nonzero).2 large
  have quotient : n / 2 ^ s ≠ 0 := by
    have := (Nat.le_div_iff_mul_le positive).2 (show 1 * 2 ^ s ≤ n by omega)
    omega
  rw [Nat.log2_eq_iff quotient]
  constructor
  · rw [Nat.le_div_iff_mul_le positive, ← Nat.pow_add, Nat.sub_add_cancel above]
    exact Nat.log2_self_le nonzero
  · rw [Nat.div_lt_iff_lt_mul positive, ← Nat.pow_add]
    have whole : n.log2 - s + 1 + s = n.log2 + 1 := by omega
    rw [whole]
    exact Nat.lt_log2_self

/-- The logarithm of a word is below its width. -/
theorem log2_word (word : BitVec 64) : word.toNat.log2 < 64 := by
  by_cases zero : word.toNat = 0
  · rw [zero, Nat.log2_zero]
    omega
  · exact (Nat.log2_lt zero).2 word.isLt

/-- The binary logarithm grows with its argument. -/
theorem log2_mono {first second : Nat} (order : first ≤ second) : first.log2 ≤ second.log2 := by
  by_cases zero : first = 0
  · rw [zero, Nat.log2_zero]
    exact Nat.zero_le _
  · have large : 2 ^ first.log2 ≤ second := Nat.le_trans (Nat.log2_self_le zero) order
    exact (Nat.le_log2 (by omega)).2 large

/-- A mask of ones above a place meets a number in nothing when the bits it covers are zero. -/
theorem and_ones_eq_zero_iff (n s : Nat) :
    n &&& (2 ^ s - 1) * 2 ^ s = 0 ↔ n / 2 ^ s % 2 ^ s = 0 := by
  have shifted : n &&& (2 ^ s - 1) * 2 ^ s = (n / 2 ^ s % 2 ^ s) * 2 ^ s := by
    rw [← Nat.shiftLeft_eq, ← Nat.shiftLeft_eq, ← Nat.and_two_pow_sub_one_eq_mod,
      ← Nat.shiftRight_eq_div_pow]
    apply Nat.eq_of_testBit_eq
    intro place
    simp only [Nat.testBit_and, Nat.testBit_shiftLeft, Nat.testBit_shiftRight]
    by_cases high : place ≥ s
    · have there : s + (place - s) = place := by omega
      simp [high, there]
    · simp [high]
  rw [shifted]
  simp

end Olimex2378.Log2
