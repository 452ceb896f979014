/-!
# Masked and joined words

A word that is masked with ones keeps its data bits. Two words that are shifted together give
their data bits in a row, except that what the lower one has above its data bits falls on the
upper one. What falls on bits that are set anyway is not seen, so only the others count.
-/

namespace Olimex2378.Masks

section Masks

variable {size : Nat} (word : BitVec size) (width : Nat)

/-- A masked word is its data bits. -/
theorem masked_eq :
    word &&& (BitVec.allOnes width).setWidth size = (word.setWidth width).setWidth size := by
  apply BitVec.eq_of_getLsbD_eq
  intro i bound
  simp only [BitVec.getLsbD_and, BitVec.getLsbD_setWidth, BitVec.getLsbD_allOnes, bound,
    decide_true, Bool.true_and]
  exact Bool.and_comm _ _

end Masks

section Joins

variable {size width long : Nat}

/-- Two words that are shifted together and cut to twice their width. -/
theorem joined_eq (high low : BitVec size) (fits : width + width ≤ long) :
    ((high.setWidth long <<< width) ||| low.setWidth long).setWidth (width + width) =
      (high.setWidth width ||| (low >>> width).setWidth width) ++ low.setWidth width := by
  apply BitVec.eq_of_getLsbD_eq
  intro i bound
  have inside : i < long := by omega
  simp only [BitVec.getLsbD_setWidth, BitVec.getLsbD_or, BitVec.getLsbD_shiftLeft,
    BitVec.getLsbD_append, BitVec.getLsbD_ushiftRight, bound, inside, decide_true, Bool.true_and]
  by_cases below : i < width
  · simp [below]
  · have place : i - width < long := by omega
    have upper : i - width < width := by omega
    have sum : width + (i - width) = i := by omega
    simp [below, place, upper, sum]

/-- Above its data bits an extended word has nothing. -/
theorem extended_upper (data : BitVec width) (size : Nat) :
    ((data.setWidth size) >>> width).setWidth width = 0 := by
  apply BitVec.eq_of_getLsbD_eq
  intro i bound
  simp

end Joins

/-- Bits that are set hide what falls on them, and nothing else does. -/
theorem or_eq_or_iff {width : Nat} (set left right : BitVec width) :
    set ||| left = set ||| right ↔ left &&& ~~~set = right &&& ~~~set := by
  constructor
  · intro same
    apply BitVec.eq_of_getLsbD_eq
    intro i bound
    have bit := congrArg (fun bits => bits.getLsbD i) same
    simp only [BitVec.getLsbD_or] at bit
    rw [BitVec.getLsbD_and, BitVec.getLsbD_and, BitVec.getLsbD_not, decide_eq_true bound]
    cases isSet : set.getLsbD i with
    | false => simpa [isSet] using bit
    | true => simp
  · intro same
    apply BitVec.eq_of_getLsbD_eq
    intro i bound
    have bit := congrArg (fun bits => bits.getLsbD i) same
    simp only [BitVec.getLsbD_and, BitVec.getLsbD_not, bound, decide_true, Bool.true_and] at bit
    rw [BitVec.getLsbD_or, BitVec.getLsbD_or]
    cases isSet : set.getLsbD i with
    | false => simpa [isSet] using bit
    | true => simp

end Olimex2378.Masks
