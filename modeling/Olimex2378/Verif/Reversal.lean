import Olimex2378.Basis.Mirror
import Olimex2378.Host.Helpers

/-!
# The reversal in place

Each pass of `util_strreverse` exchanges the bytes at its two pointers and moves the pointers
towards each other, so what it leaves is the mirror image of the range between them. The loop
ends for every pair of positions, as the distance between the pointers shrinks.
-/

namespace Olimex2378.Verif.Reversal

open Host Mirror

variable {size : Nat}

/-- The cells after an exchange of two of them. -/
theorem getElem?_exchanged (buffer : Vector UInt8 size) {low high : Nat} (long : low < high)
    (inside : high < size) (i : Nat) :
    ((buffer.set high buffer[low]).set low buffer[high])[i]? =
      buffer[exchange low high i]? := by
  have below : low < size := by omega
  rw [Vector.getElem?_set, Vector.getElem?_set, exchange]
  by_cases isLow : i = low
  · rw [if_pos isLow.symm, if_pos isLow, Vector.getElem?_eq_getElem inside]
  · have notLow : low ≠ i := fun same => isLow same.symm
    rw [if_neg notLow, if_neg isLow]
    by_cases isHigh : i = high
    · rw [if_pos isHigh.symm, if_pos isHigh, Vector.getElem?_eq_getElem below]
    · have notHigh : high ≠ i := fun same => isHigh same.symm
      rw [if_neg notHigh, if_neg isHigh]

/-- Two arrays with the same cell at every position are the same array. -/
theorem sameCells {cells others : Vector UInt8 size}
    (same : ∀ i : Nat, cells[i]? = others[i]?) : cells = others := by
  apply Vector.ext
  intro i bound
  have cell := same i
  rw [Vector.getElem?_eq_getElem bound, Vector.getElem?_eq_getElem bound] at cell
  exact Option.some.inj cell

/-- Every byte is afterwards what was at the mirrored position. -/
theorem utilStrreverse_mirrors (buffer : Vector UInt8 size) (beginPtr endPtr : Nat)
    (inside : beginPtr < size ∧ endPtr < size) (i : Nat) :
    (utilStrreverse buffer beginPtr endPtr inside)[i]? = buffer[mirror beginPtr endPtr i]? := by
  fun_induction utilStrreverse buffer beginPtr endPtr inside with
  | case1 buffer beginPtr endPtr inside more aux stored exchanged ih =>
    rw [ih, ← exchange_mirror more]
    exact getElem?_exchanged buffer more inside.2 _
  | case2 buffer beginPtr endPtr inside short => rw [mirror_short (Nat.le_of_not_lt short)]

/-- `util_strreverse` reverses its range and nothing else. For every array and every two
positions in it: the bytes from the first position to the second are the reverse of what they
were, the others are unchanged, all of them are when the second position is not behind the
first, and a second call restores the array. -/
theorem utilStrreverse_reverses (buffer : Vector UInt8 size) (beginPtr endPtr : Nat)
    (inside : beginPtr < size ∧ endPtr < size) :
    let after := utilStrreverse buffer beginPtr endPtr inside
    range after beginPtr endPtr = (range buffer beginPtr endPtr).reverse ∧
      (∀ i (bound : i < size), i < beginPtr ∨ endPtr < i → after[i] = buffer[i]) ∧
      (endPtr ≤ beginPtr → after = buffer) ∧
      utilStrreverse after beginPtr endPtr inside = buffer := by
  intro after
  have mirrors : ∀ i : Nat, after[i]? = buffer[mirror beginPtr endPtr i]? :=
    utilStrreverse_mirrors buffer beginPtr endPtr inside
  refine ⟨range_mirrored inside.2 mirrors, ?_, ?_, ?_⟩
  · intro i bound outside
    have cell := mirrors i
    rw [mirror_outside outside, Vector.getElem?_eq_getElem bound,
      Vector.getElem?_eq_getElem bound] at cell
    exact Option.some.inj cell
  · intro short
    apply sameCells
    intro i
    rw [mirrors, mirror_short short]
  · apply sameCells
    intro i
    rw [utilStrreverse_mirrors, mirrors, mirror_mirror]

/-- Reversing three of five bytes. -/
theorem utilStrreverse_reverses_hello :
    range (utilStrreverse #v[104, 101, 108, 108, 111] 1 3 (by decide)) 1 3 = [108, 108, 101] :=
  (utilStrreverse_reverses #v[104, 101, 108, 108, 111] 1 3 (by decide)).1

end Olimex2378.Verif.Reversal
