import Olimex2378.Basis.Bytes
import Mathlib.Data.Nat.Digits.Defs

/-!
# Binary digits and spaced texts

The binary digits of a word, most significant first, are the digits of its number. A text that
has a separator before every item at a multiple of some size is the same as its items cut into
groups of that size, each group led by a separator.
-/

namespace Olimex2378.Binary

open Bytes

section Digits

variable {width : Nat}

/-- The leading digits of a word are the number that is left without the others. -/
theorem ofDigits_leading (word : BitVec width) {count : Nat} (within : count ≤ width) :
    Nat.ofDigits 2 (((List.range count).map word.getMsbD).reverse.map Bool.toNat) =
      word.toNat / 2 ^ (width - count) := by
  induction count with
  | zero =>
    have bound : word.toNat < 2 ^ width := word.isLt
    show 0 = word.toNat / 2 ^ (width - 0)
    rw [Nat.sub_zero, Nat.div_eq_of_lt bound]
  | succ count ih =>
    have earlier := ih (by omega)
    have place : width - count = width - 1 - count + 1 := by omega
    have others : width - (count + 1) = width - 1 - count := by omega
    have digit : (word.getMsbD count).toNat = word.toNat / 2 ^ (width - 1 - count) % 2 := by
      have inside : count < width := by omega
      rw [BitVec.getMsbD_eq_getLsbD, decide_eq_true inside, Bool.true_and,
        ← BitVec.testBit_toNat, Nat.toNat_testBit]
    rw [List.range_succ, List.map_append, List.map_singleton, List.reverse_append,
      List.reverse_singleton, List.singleton_append, List.map_cons, Nat.ofDigits_cons, earlier,
      digit, place, others, Nat.pow_succ, ← Nat.div_div_eq_div_mul]
    omega

/-- The digits of a word, most significant first, are the digits of its number. -/
theorem ofDigits_word (word : BitVec width) :
    Nat.ofDigits 2 (((List.range width).map word.getMsbD).reverse.map Bool.toNat) =
      word.toNat := by
  have all := ofDigits_leading word (Nat.le_refl width)
  rwa [Nat.sub_self, Nat.pow_zero, Nat.div_one] at all

/-- The digit at a place is what a shift to the sign bit and a mask of this bit leave. -/
theorem shifted_sign_iff (word : BitVec width) {place : Nat} (inside : place < width) :
    (word <<< place) &&& BitVec.twoPow width (width - 1) = BitVec.twoPow width (width - 1) ↔
      word.getMsbD place = true := by
  have nonzero : (0 : BitVec width) ≠ BitVec.twoPow width (width - 1) := by
    intro same
    have sign := congrArg (fun value => value.getLsbD (width - 1)) same
    simp only [BitVec.getLsbD_twoPow, BitVec.ofNat_eq_ofNat, BitVec.getLsbD_zero] at sign
    have top : width - 1 < width := by omega
    simp [top] at sign
  have shifted : (word <<< place).getLsbD (width - 1) = word.getMsbD place := by
    have top : width - 1 < width := by omega
    have notBelow : ¬ width - 1 < place := by omega
    rw [BitVec.getLsbD_shiftLeft, BitVec.getMsbD_eq_getLsbD, decide_eq_true top,
      decide_eq_true inside, decide_eq_false notBelow]
    rfl
  rw [BitVec.and_twoPow, shifted]
  cases word.getMsbD place with
  | false => simpa using nonzero
  | true => simp

end Digits

section Spaced

variable {α : Type*}

/-- A text with a separator before every item at a multiple of some size, where the first item
is at some position. -/
def spaced (size : Nat) (separator : α) : (position : Nat) → List α → List α
  | _, [] => []
  | position, item :: rest =>
    (if position % size = 0 then [separator] else []) ++
      item :: spaced size separator (position + 1) rest

/-- Items in succession are spaced in succession. -/
theorem spaced_append (size : Nat) (separator : α) (position : Nat) (first second : List α) :
    spaced size separator position (first ++ second) =
      spaced size separator position first ++
        spaced size separator (position + first.length) second := by
  induction first generalizing position with
  | nil => rfl
  | cons item rest ih =>
    have later : position + (item :: rest).length = position + 1 + rest.length := by
      rw [List.length_cons]
      omega
    rw [List.cons_append, spaced, ih, later, spaced, List.append_assoc, List.cons_append]

/-- Between two multiples of the size there is no separator. -/
theorem spaced_within {size : Nat} (separator : α) {position : Nat} {items : List α}
    (started : 0 < position % size) (short : position % size + items.length ≤ size) :
    spaced size separator position items = items := by
  induction items generalizing position with
  | nil => rfl
  | cons item rest ih =>
    have none : ¬ position % size = 0 := by omega
    rw [spaced, if_neg none, List.nil_append]
    rw [List.length_cons] at short
    cases rest with
    | nil => rfl
    | cons second rest =>
      have next : (position + 1) % size = position % size + 1 := by
        rw [List.length_cons] at short
        rw [Nat.add_mod, Nat.mod_eq_of_lt (a := 1) (by omega), Nat.mod_eq_of_lt (by omega)]
      rw [ih (by omega) (by omega)]

/-- At a multiple of the size a group has the separator before its first item only. -/
theorem spaced_group {size : Nat} (separator : α) {position : Nat} {items : List α}
    (multiple : position % size = 0) (full : items.length = size) (positive : 0 < size) :
    spaced size separator position items = separator :: items := by
  cases items with
  | nil =>
    rw [List.length_nil] at full
    omega
  | cons item rest =>
    rw [List.length_cons] at full
    rw [spaced, if_pos multiple, List.singleton_append]
    cases rest with
    | nil => rfl
    | cons second rest =>
      rw [List.length_cons] at full
      have next : (position + 1) % size = 1 := by
        rw [Nat.add_mod, multiple, Nat.zero_add, Nat.mod_mod, Nat.mod_eq_of_lt (by omega)]
      rw [spaced_within separator (by omega) (by rw [List.length_cons]; omega)]

/-- Items in a whole number of groups are led by a separator in each group. -/
theorem spaced_groupsUpTo {size count : Nat} (positive : 0 < size) (separator : α)
    {position : Nat} (multiple : position % size = 0) {items : List α}
    (whole : items.length = count * size) :
    spaced size separator position items =
      (groupsUpTo size count items).flatMap (separator :: ·) := by
  induction count generalizing position items with
  | zero =>
    rw [Nat.zero_mul] at whole
    rw [List.eq_nil_of_length_eq_zero whole]
    rfl
  | succ count ih =>
    rw [Nat.add_mul, Nat.one_mul] at whole
    have full : (items.take size).length = size := by
      rw [List.length_take]
      omega
    have next : (position + (items.take size).length) % size = 0 := by
      rw [full, Nat.add_mod_right, multiple]
    have shorter : (items.drop size).length = count * size := by
      rw [List.length_drop]
      omega
    calc spaced size separator position items
        = spaced size separator position (items.take size ++ items.drop size) := by
          rw [List.take_append_drop]
      _ = (separator :: items.take size) ++
            (groupsUpTo size count (items.drop size)).flatMap (separator :: ·) := by
          rw [spaced_append, spaced_group separator multiple full positive, ih next shorter]
      _ = (groupsUpTo size (count + 1) items).flatMap (separator :: ·) := by
          rw [groupsUpTo, List.flatMap_cons]

/-- Without the separators a spaced text is its items. -/
theorem spaced_filter [DecidableEq α] (size : Nat) {separator : α} (position : Nat)
    {items : List α} (absent : separator ∉ items) :
    (spaced size separator position items).filter (· ≠ separator) = items := by
  induction items generalizing position with
  | nil => rfl
  | cons item rest ih =>
    have other : item ≠ separator := fun same => absent (same ▸ List.mem_cons_self)
    have later := ih (position + 1) (fun member => absent (List.mem_cons_of_mem item member))
    rw [spaced, List.filter_append, List.filter_cons_of_pos (by simpa using other), later]
    split
    · simp
    · rfl

end Spaced

end Olimex2378.Binary
