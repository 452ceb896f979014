/-!
# Mirrored positions

The position that a range of positions has its mirror image at, with every position outside
the range left where it is. Reversing a range moves every cell to its mirrored position, and
doing so twice moves nothing.
-/

namespace Olimex2378.Mirror

/-- The mirror image of a position in a range, both ends of which belong to it. -/
def mirror (low high i : Nat) : Nat := if low ≤ i ∧ i ≤ high then low + high - i else i

/-- A mirrored position is mirrored back. -/
theorem mirror_mirror (low high i : Nat) : mirror low high (mirror low high i) = i := by
  unfold mirror
  by_cases inside : low ≤ i ∧ i ≤ high
  · have image : low ≤ low + high - i ∧ low + high - i ≤ high := by omega
    rw [if_pos inside, if_pos image]
    omega
  · rw [if_neg inside, if_neg inside]

/-- Positions outside the range are not moved. -/
theorem mirror_outside {low high i : Nat} (outside : i < low ∨ high < i) :
    mirror low high i = i := by
  rw [mirror, if_neg (by omega)]

/-- A range of at most one position moves nothing. -/
theorem mirror_short {low high : Nat} (short : high ≤ low) (i : Nat) : mirror low high i = i := by
  unfold mirror
  split
  · omega
  · rfl

/-- The other end of a range, for an end of it. -/
def exchange (low high i : Nat) : Nat := if i = low then high else if i = high then low else i

/-- A range is mirrored by mirroring what is between its ends and exchanging these. -/
theorem exchange_mirror {low high : Nat} (long : low < high) (i : Nat) :
    exchange low high (mirror (low + 1) (high - 1) i) = mirror low high i := by
  by_cases between : low + 1 ≤ i ∧ i ≤ high - 1
  · have image : mirror (low + 1) (high - 1) i = low + high - i := by
      rw [mirror, if_pos between]
      omega
    rw [image, exchange, if_neg (by omega), if_neg (by omega), mirror, if_pos (by omega)]
  · rw [mirror, if_neg between, exchange]
    by_cases isLow : i = low
    · rw [if_pos isLow, mirror, if_pos (by omega)]
      omega
    · rw [if_neg isLow]
      by_cases isHigh : i = high
      · rw [if_pos isHigh, mirror, if_pos (by omega)]
        omega
      · rw [if_neg isHigh, mirror_outside (by omega)]

section Cells

variable {α : Type} {size : Nat}

/-- The cells of a range, both ends of which belong to it. -/
def range (cells : Vector α size) (low high : Nat) : List α :=
  (cells.toList.drop low).take (high + 1 - low)

/-- A range inside the cells has as many cells as positions. -/
theorem range_length (cells : Vector α size) {low high : Nat} (inside : high < size) :
    (range cells low high).length = high + 1 - low := by
  rw [range, List.length_take, List.length_drop, Vector.length_toList]
  omega

/-- A cell of a range. -/
theorem getElem?_range (cells : Vector α size) {low high k : Nat} (within : k < high + 1 - low) :
    (range cells low high)[k]? = cells[low + k]? := by
  rw [range, List.getElem?_take, if_pos within, List.getElem?_drop, Vector.getElem?_toList]

/-- Cells moved to their mirrored positions are the reverse of what they were. -/
theorem range_mirrored {cells moved : Vector α size} {low high : Nat} (inside : high < size)
    (mirrored : ∀ i : Nat, moved[i]? = cells[mirror low high i]?) :
    range moved low high = (range cells low high).reverse := by
  apply List.ext_getElem?
  intro k
  by_cases within : k < high + 1 - low
  · have length : (range cells low high).length = high + 1 - low := range_length cells inside
    have image : mirror low high (low + k) = low + (high + 1 - low - 1 - k) := by
      rw [mirror, if_pos (by omega)]
      omega
    rw [List.getElem?_reverse (by omega), length, getElem?_range moved within,
      getElem?_range cells (by omega), mirrored, image]
  · have beyond : (range moved low high).length ≤ k ∧
        (range cells low high).reverse.length ≤ k := by
      rw [List.length_reverse, range_length moved inside, range_length cells inside]
      omega
    rw [List.getElem?_eq_none beyond.1, List.getElem?_eq_none beyond.2]

end Cells

end Olimex2378.Mirror
