/-!
# Scans that may end the program

A scan runs over the indices below a count. Its body may advance the index past what it has
used, and may end the whole scan with an exit. A scan that returns is an induction over its
passes: `Scans.induct` carries a property of the index and the state back from the end.
-/

namespace Olimex2378.Scan

variable {State Exit : Type} {count : Nat}
  {pass : (i : Nat) → i < count → State → Except Exit (Nat × State)}
  {loop : Nat → State → Except Exit State}

/-- The function is the scan with the body, which leaves the last index that it has used. -/
structure Scans (pass : (i : Nat) → i < count → State → Except Exit (Nat × State))
    (loop : Nat → State → Except Exit State) : Prop where
  /-- Behind the last index the scan returns. -/
  finish : ∀ i state, count ≤ i → loop i state = .ok state
  /-- The scan goes on behind what a pass has used. -/
  proceed : ∀ {i state passed} (inside : i < count), pass i inside state = .ok passed →
    loop i state = loop (passed.1 + 1) passed.2
  /-- The scan ends with the exit of a pass. -/
  refuse : ∀ {i state exit} (inside : i < count), pass i inside state = .error exit →
    loop i state = .error exit
  /-- A pass does not move the index back. -/
  forward : ∀ {i state passed} (inside : i < count), pass i inside state = .ok passed →
    i ≤ passed.1

/-- A function with the equation of a scan is one. -/
theorem scans_of_eq
    (equation : ∀ i state, loop i state =
      if inside : i < count then
        match pass i inside state with
        | .error exit => .error exit
        | .ok passed => loop (passed.1 + 1) passed.2
      else .ok state)
    (forward : ∀ {i state passed} (inside : i < count), pass i inside state = .ok passed →
      i ≤ passed.1) : Scans pass loop where
  finish i state behind := by rw [equation, dif_neg (Nat.not_lt.2 behind)]
  proceed inside parsed := by rw [equation, dif_pos inside, parsed]
  refuse inside refused := by rw [equation, dif_pos inside, refused]
  forward := forward

/-- What holds at the end and is carried back by every pass holds wherever the scan returns
from. -/
theorem Scans.induct (scans : Scans pass loop) {after : State} {motive : Nat → State → Prop}
    (finish : ∀ i, count ≤ i → motive i after)
    (back : ∀ i inside state passed, pass i inside state = .ok passed →
      motive (passed.1 + 1) passed.2 → motive i state)
    (i : Nat) (state : State) (returns : loop i state = .ok after) : motive i state := by
  by_cases inside : i < count
  · cases made : pass i inside state with
    | error exit => cases returns.symm.trans (scans.refuse inside made)
    | ok passed =>
      have forward := scans.forward inside made
      have later : loop (passed.1 + 1) passed.2 = .ok after :=
        (scans.proceed inside made).symm.trans returns
      exact back i inside state passed made
        (scans.induct finish back (passed.1 + 1) passed.2 later)
  · have behind : count ≤ i := Nat.le_of_not_lt inside
    cases returns.symm.trans (scans.finish i state behind)
    exact finish i behind
termination_by count - i

end Olimex2378.Scan
