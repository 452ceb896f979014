import Mathlib.Tactic.IntervalCases
import Olimex2378.Basis.Log2
import Olimex2378.Host.Helpers

/-!
# Bit lengths

`fast_log2` is the binary logarithm of every word but zero, and `numbits_in_int` is one more.
A pass of the search keeps what is left of the word below the width still to be searched, and
keeps the sum of the result so far and the logarithm of what is left. The masks and the shifts
enter the proof through their arithmetic meaning alone.
-/

namespace Olimex2378.Verif.BitLength

open Host Log2

/-- A shift is a power of two. -/
theorem shift_exact (i : Nat) (inside : i < 6) : S[i].toNat = 2 ^ i := by
  interval_cases i <;> rfl

/-- A mask covers as many bits as its shift, from the place of its shift on. -/
theorem mask_exact (i : Nat) (inside : i < 6) :
    b[i].toNat = (2 ^ 2 ^ i - 1) * 2 ^ 2 ^ i := by
  interval_cases i <;> rfl

/-- What holds of a search for the logarithm of a word with some passes left. -/
structure Searching (word : BitVec 64) (passes : Nat) (x : BitVec 64) (r : BitVec 32) : Prop where
  /-- There is a one left to find. -/
  nonzero : x.toNat ≠ 0
  /-- It lies in the width that the passes left can search. -/
  narrow : x.toNat < 2 ^ 2 ^ passes
  /-- The result has no bit set where the passes left set one. -/
  coarse : 2 ^ passes ∣ r.toNat
  /-- The result so far is what the logarithm of the rest lacks. -/
  sum : r.toNat + x.toNat.log2 = word.toNat.log2

/-- A pass takes the upper half exactly when something is left there. -/
theorem taken_iff {word x : BitVec 64} {r : BitVec 32} {i : Nat} (inside : i < 6)
    (searching : Searching word (i + 1) x r) : x &&& b[i] ≠ 0 ↔ 2 ^ 2 ^ i ≤ x.toNat := by
  have positive : 0 < 2 ^ 2 ^ i := Nat.two_pow_pos _
  have halves : 2 ^ 2 ^ (i + 1) = 2 ^ 2 ^ i * 2 ^ 2 ^ i := by
    rw [← Nat.pow_add, Nat.pow_succ]
    congr 1
    omega
  have small : x.toNat / 2 ^ 2 ^ i < 2 ^ 2 ^ i := by
    rw [Nat.div_lt_iff_lt_mul positive, ← halves]
    exact searching.narrow
  have meets : (x &&& b[i]).toNat = 0 ↔ x.toNat / 2 ^ 2 ^ i = 0 := by
    rw [BitVec.toNat_and, mask_exact i inside, and_ones_eq_zero_iff, Nat.mod_eq_of_lt small]
  have zero : x &&& b[i] = 0 ↔ (x &&& b[i]).toNat = 0 := BitVec.toNat_eq
  rw [ne_eq, zero, meets, Nat.div_eq_zero_iff_lt positive]
  omega

/-- A pass that takes the upper half keeps the search. -/
theorem searching_taken {word x : BitVec 64} {r : BitVec 32} {i : Nat} (inside : i < 6)
    (searching : Searching word (i + 1) x r) (large : 2 ^ 2 ^ i ≤ x.toNat) :
    Searching word i (x >>> S[i]) ((r.setWidth 64 ||| S[i]).setWidth 32) := by
  have positive : 0 < 2 ^ 2 ^ i := Nat.two_pow_pos _
  have halves : 2 ^ 2 ^ (i + 1) = 2 ^ 2 ^ i * 2 ^ 2 ^ i := by
    rw [← Nat.pow_add, Nat.pow_succ]
    congr 1
    omega
  have shifted : (x >>> S[i]).toNat = x.toNat / 2 ^ 2 ^ i := by
    rw [BitVec.ushiftRight_eq', BitVec.toNat_ushiftRight, shift_exact i inside,
      Nat.shiftRight_eq_div_pow]
  have rest := log2_div_two_pow large
  have above : 2 ^ i ≤ x.toNat.log2 := (Nat.le_log2 searching.nonzero).2 large
  have sum := searching.sum
  have joined : ((r.setWidth 64 ||| S[i]).setWidth 32).toNat = r.toNat + 2 ^ i := by
    have bounded := log2_word word
    cases searching.coarse with
    | intro count multiple =>
      have below : 2 ^ i < 2 ^ (i + 1) := Nat.pow_lt_pow_right (by decide) (Nat.lt_succ_self i)
      have disjoint := Nat.two_pow_add_eq_or_of_lt below count
      have width : r.toNat % 2 ^ 64 = r.toNat := Nat.mod_eq_of_lt (by omega)
      rw [BitVec.toNat_setWidth, BitVec.toNat_or, BitVec.toNat_setWidth, shift_exact i inside,
        width, multiple, ← disjoint]
      exact Nat.mod_eq_of_lt (by omega)
  constructor
  · rw [shifted]
    have := (Nat.le_div_iff_mul_le positive).2 (show 1 * 2 ^ 2 ^ i ≤ x.toNat by omega)
    omega
  · rw [shifted, Nat.div_lt_iff_lt_mul positive, ← halves]
    exact searching.narrow
  · rw [joined]
    have wider : 2 ^ i ∣ 2 ^ (i + 1) := Nat.pow_dvd_pow 2 (Nat.le_succ i)
    exact Nat.dvd_add (Nat.dvd_trans wider searching.coarse) (Nat.dvd_refl _)
  · rw [joined, shifted, rest]
    omega

/-- A pass that finds the upper half empty keeps the search. -/
theorem searching_passed {word x : BitVec 64} {r : BitVec 32} {i : Nat}
    (searching : Searching word (i + 1) x r) (small : x.toNat < 2 ^ 2 ^ i) :
    Searching word i x r where
  nonzero := searching.nonzero
  narrow := small
  coarse := Nat.dvd_trans (Nat.pow_dvd_pow 2 (Nat.le_succ i)) searching.coarse
  sum := searching.sum

/-- The passes left complete the search. -/
theorem fastLog2Loop_exact {word x : BitVec 64} {r : BitVec 32} {passes : Nat}
    (inside : passes ≤ 6) (searching : Searching word passes x r) :
    (fastLog2Loop x r passes inside).toNat = word.toNat.log2 := by
  induction passes generalizing x r with
  | zero =>
    -- One bit is left and it is set.
    have one : x.toNat = 1 := by
      have nonzero := searching.nonzero
      have narrow : x.toNat < 2 := searching.narrow
      omega
    have sum := searching.sum
    rw [one] at sum
    exact sum
  | succ i ih =>
    have taken := taken_iff inside searching
    rw [fastLog2Loop]
    by_cases large : 2 ^ 2 ^ i ≤ x.toNat
    · rw [if_pos (taken.2 large)]
      exact ih (Nat.le_of_lt inside) (searching_taken inside searching large)
    · rw [if_neg (fun meets => large (taken.1 meets))]
      exact ih (Nat.le_of_lt inside) (searching_passed searching (Nat.lt_of_not_le large))

/-- `fast_log2` is the binary logarithm of every word but zero. -/
theorem fastLog2_exact (x : BitVec 64) (nonzero : x ≠ 0) :
    (fastLog2 x).toNat = x.toNat.log2 := by
  apply fastLog2Loop_exact
  constructor
  · intro zero
    exact nonzero (BitVec.eq_of_toNat_eq zero)
  · exact x.isLt
  · exact Nat.dvd_zero _
  · exact Nat.zero_add _

/-- What `__builtin_clzll` leaves of the width of a word is one more than the logarithm. -/
theorem builtinClzll_exact (x : BitVec 64) (nonzero : x ≠ 0) :
    (builtinClzll x).toNat = 63 - x.toNat.log2 := by
  have word : x.toNat ≠ 0 := by
    intro zero
    exact nonzero (BitVec.eq_of_toNat_eq zero)
  have lower := BitVec.two_pow_sub_clz_le_toNat_of_ne_zero (by decide) nonzero
  have upper : x.toNat < 2 ^ (64 - x.clz.toNat) := BitVec.toNat_lt_two_pow_sub_clz
  have least : 63 - x.clz.toNat ≤ x.toNat.log2 := (Nat.le_log2 word).2 lower
  have most : x.toNat.log2 < 64 - x.clz.toNat := (Nat.log2_lt word).2 upper
  have width : (builtinClzll x).toNat = x.clz.toNat % 2 ^ 32 := BitVec.toNat_setWidth _ _
  have narrow : x.clz.toNat < 2 ^ 32 := by omega
  rw [width, Nat.mod_eq_of_lt narrow]
  omega

/-- `numbits_in_int` ends the program for zero and no other word. -/
theorem numbitsInInt_exact (x : BitVec 64) (nonzero : x ≠ 0) :
    numbitsInInt x = .ok (fastLog2 x + 1) := by
  have all : x &&& 0xFFFFFFFFFFFFFFFF = x := BitVec.and_allOnes
  have zeros := builtinClzll_exact x nonzero
  have result := fastLog2_exact x nonzero
  have bounded := log2_word x
  have same : 64 - builtinClzll x = fastLog2 x + 1 := by
    apply BitVec.eq_of_toNat_eq
    rw [BitVec.toNat_sub, BitVec.toNat_add, zeros, result]
    change (2 ^ 32 - (63 - x.toNat.log2) + 64) % 2 ^ 32 = (x.toNat.log2 + 1) % 2 ^ 32
    omega
  rw [numbitsInInt, if_neg nonzero, all]
  exact congrArg Except.ok same

/-- For every word but zero `fast_log2` returns the one number whose power of two and the next
enclose the word, `numbits_in_int` returns one more, and neither returns less for a larger
word. -/
theorem bit_lengths_agree (x : BitVec 64) (nonzero : x ≠ 0) :
    (∀ k : Nat, (fastLog2 x).toNat = k ↔ 2 ^ k ≤ x.toNat ∧ x.toNat < 2 ^ (k + 1)) ∧
      (∃ bits, numbitsInInt x = .ok bits ∧ bits.toNat = (fastLog2 x).toNat + 1) ∧
      ∀ y : BitVec 64, x.toNat ≤ y.toNat →
        (fastLog2 x).toNat ≤ (fastLog2 y).toNat ∧
          ∃ less more, numbitsInInt x = .ok less ∧ numbitsInInt y = .ok more ∧
            less.toNat ≤ more.toNat := by
  have word : x.toNat ≠ 0 := by
    intro zero
    exact nonzero (BitVec.eq_of_toNat_eq zero)
  have next : ∀ z : BitVec 64, z ≠ 0 → (fastLog2 z + 1).toNat = (fastLog2 z).toNat + 1 := by
    intro z positive
    have result := fastLog2_exact z positive
    have bounded := log2_word z
    rw [BitVec.toNat_add, result]
    exact Nat.mod_eq_of_lt (show z.toNat.log2 + 1 < 2 ^ 32 by omega)
  constructor
  · intro k
    rw [fastLog2_exact x nonzero]
    exact Nat.log2_eq_iff word
  · constructor
    · exact ⟨fastLog2 x + 1, numbitsInInt_exact x nonzero, next x nonzero⟩
    · intro y order
      have positive : y ≠ 0 := by
        intro zero
        have : y.toNat = 0 := by rw [zero]; rfl
        omega
      have grows : (fastLog2 x).toNat ≤ (fastLog2 y).toNat := by
        rw [fastLog2_exact x nonzero, fastLog2_exact y positive]
        exact log2_mono order
      constructor
      · exact grows
      · have longer : (fastLog2 x + 1).toNat ≤ (fastLog2 y + 1).toNat := by
          rw [next x nonzero, next y positive]
          omega
        exact ⟨_, _, numbitsInInt_exact x nonzero, numbitsInInt_exact y positive, longer⟩

/-- A word of three bits and a longer one. -/
theorem bit_lengths_agree_five :
    (5 : BitVec 64) ≠ 0 ∧ (fastLog2 5).toNat = 2 ∧
      (fastLog2 5).toNat ≤ (fastLog2 0x8000000000000000).toNat := by
  have nonzero : (5 : BitVec 64) ≠ 0 := by decide
  have agree := bit_lengths_agree 5 nonzero
  have longer := agree.2.2 0x8000000000000000 (by decide)
  exact ⟨nonzero, (agree.1 2).2 (by decide), longer.1⟩

end Olimex2378.Verif.BitLength
