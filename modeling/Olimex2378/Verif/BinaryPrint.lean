import Olimex2378.Basis.Binary
import Olimex2378.Host.Helpers

/-!
# What binaryprint prints

Every pass shifts one digit of the number into the sign bit and compares it with the mask of
that bit, so the digits come out most significant first. With the spaces left out they are the
number as an unsigned one, from which the `int` is read back.
-/

namespace Olimex2378.Verif.BinaryPrint

open Host Binary Bytes

/-- The character that stands for a digit. -/
def digitChar (digit : Bool) : Char := if digit then '1' else '0'

/-- The digit that a character stands for. -/
def digitValue (char : Char) : Nat := if char = '1' then 1 else 0

/-- A character stands for the digit that it was printed for. -/
theorem digitValue_digitChar (digit : Bool) : digitValue (digitChar digit) = digit.toNat := by
  cases digit <;> rfl

/-- The digits of a number as characters, most significant first. -/
def digits (b : CInt) : List Char := (List.range 32).map fun place => digitChar (b.getMsbD place)

/-- The digits are binary digits. -/
theorem digit_of_mem {b : CInt} {char : Char} (member : char ∈ digits b) :
    char = '0' ∨ char = '1' := by
  obtain ⟨place, -, same⟩ := List.mem_map.1 member
  rw [← same, digitChar]
  cases b.getMsbD place with
  | false => exact Or.inl rfl
  | true => exact Or.inr rfl

/-- No digit is a space. -/
theorem space_not_digit (b : CInt) : ' ' ∉ digits b := by
  intro member
  rcases digit_of_mem member with zero | one
  · exact absurd zero (by decide)
  · exact absurd one (by decide)

/-- The passes print the digits at their places, with a space before every fourth one. -/
theorem binaryprintLoop_digits (b : CInt) (i left : Nat) (within : i + left ≤ 32) :
    binaryprintLoop b (BitVec.twoPow 32 31) i left =
      spaced 4 ' ' i ((List.range' i left).map fun place => digitChar (b.getMsbD place)) := by
  induction left generalizing i with
  | zero => rfl
  | succ left ih =>
    have later := ih (i + 1) (by omega)
    have inside : i < 32 := by omega
    have digit : (if (b <<< i) &&& BitVec.twoPow 32 31 = BitVec.twoPow 32 31 then ['1'] else ['0'])
        = [digitChar (b.getMsbD i)] := by
      rw [digitChar]
      by_cases set : b.getMsbD i = true
      · rw [if_pos ((shifted_sign_iff b inside).2 set), if_pos set]
      · rw [if_neg (fun same => set ((shifted_sign_iff b inside).1 same)), if_neg set]
    rw [binaryprintLoop, List.range'_succ, List.map_cons, spaced, later]
    show _ ++ (if (b <<< i) &&& BitVec.twoPow 32 31 = BitVec.twoPow 32 31 then ['1'] else ['0']) ++
      _ = _
    rw [digit, List.append_assoc, List.singleton_append]

/-- `binaryprint` prints the digits with a space before every fourth one. -/
theorem binaryprint_digits (b : CInt) : binaryprint b = spaced 4 ' ' 0 (digits b) := by
  have mask : ((0x1 : CInt) <<< (32 - 1)) = BitVec.twoPow 32 31 := rfl
  have places : List.range 32 = List.range' 0 32 := List.range_eq_range'
  rw [digits, places]
  show binaryprintLoop b ((0x1 : CInt) <<< (32 - 1)) 0 32 = _
  rw [mask]
  exact binaryprintLoop_digits b 0 32 (Nat.le_refl 32)

/-- The digits are the number as an unsigned one. -/
theorem digits_value (b : CInt) : Nat.ofDigits 2 ((digits b).reverse.map digitValue) = b.toNat := by
  have values : (digits b).reverse.map digitValue =
      ((List.range 32).map b.getMsbD).reverse.map Bool.toNat := by
    rw [digits, List.map_reverse, List.map_map, List.map_reverse, List.map_map]
    congr 2
    funext place
    exact digitValue_digitChar (b.getMsbD place)
  rw [values, ofDigits_word]

/-- `binaryprint` is a faithful encoding. For every `int`: without its spaces the text has
exactly 32 characters, all of them binary digits, a space stands before each group of four of
them and nowhere else, the digits read most significant first are the number modulo `2 ^ 32`,
and no other number is printed as the same text. -/
theorem binaryprint_faithful (b : CInt) :
    let digits := (binaryprint b).filter (· ≠ ' ')
    digits.length = 32 ∧
      (∀ digit ∈ digits, digit = '0' ∨ digit = '1') ∧
      binaryprint b = (groups 4 digits).flatMap (' ' :: ·) ∧
      ((Nat.ofDigits 2 (digits.reverse.map digitValue) : Nat) : Int) = b.toInt % 2 ^ 32 ∧
      ∀ other : CInt, binaryprint other = binaryprint b → other = b := by
  have read : ∀ number : CInt, (binaryprint number).filter (· ≠ ' ') = digits number := by
    intro number
    rw [binaryprint_digits]
    exact spaced_filter 4 0 (space_not_digit number)
  intro text
  have isDigits : text = digits b := read b
  have length : (digits b).length = 32 := by
    rw [digits, List.length_map, List.length_range]
  rw [isDigits]
  refine ⟨length, fun digit member => digit_of_mem member, ?_, ?_, ?_⟩
  · have count : ((digits b).length + 4 - 1) / 4 = 8 := by rw [length]
    rw [binaryprint_digits, groups, count]
    exact spaced_groupsUpTo (by decide) ' ' (by decide) length
  · have bound := b.isLt
    rw [digits_value, BitVec.toInt_eq_toNat_cond]
    split <;> omega
  · intro other same
    have sameDigits : digits other = digits b := by rw [← read other, ← read b, same]
    have sameNumber : other.toNat = b.toNat := by
      rw [← digits_value other, ← digits_value b, sameDigits]
    exact BitVec.eq_of_toNat_eq sameNumber

example : binaryprint 4322210 = " 0000 0000 0100 0001 1111 0011 1010 0010".toList := by decide

end Olimex2378.Verif.BinaryPrint
