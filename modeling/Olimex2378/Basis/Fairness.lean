import Mathlib.Data.Nat.Init
import Mathlib.Order.Monotone.Basic
import Olimex2378.Basis.Account

/-!
# Endless runs

A schedule gives an input for each time. What comes in the end on an endless run rests on what
the schedule does again and again. The rule for it names, for each time before the end, the
input that helps; every step makes a rank smaller, or it leaves the rank and the input that
helps as they are and is not that input.
-/

namespace Olimex2378.Run

section Schedules

variable {State Input Output : Type*}

/-- The inputs of a schedule before a time. -/
def upTo (schedule : Nat → Input) (n : Nat) : List Input := (List.range n).map schedule

/-- The state of an endless run at a time. -/
def stateAt (step : State → Input → State × Output) (start : State) (schedule : Nat → Input)
    (n : Nat) : State := exec step start (upTo schedule n)

variable (step : State → Input → State × Output) (start : State) (schedule : Nat → Input)

/-- One more input. -/
theorem upTo_succ (n : Nat) : upTo schedule (n + 1) = upTo schedule n ++ [schedule n] := by
  simp [upTo, List.range_succ]

/-- What comes before a later time begins with what comes before an earlier one. -/
theorem upTo_le {early late : Nat} (before : early ≤ late) :
    ∃ more, upTo schedule late = upTo schedule early ++ more := by
  induction late, before using Nat.le_induction with
  | base => exact ⟨[], (List.append_nil _).symm⟩
  | succ late _ ih =>
    obtain ⟨more, split⟩ := ih
    exact ⟨more ++ [schedule late], by rw [upTo_succ, split, List.append_assoc]⟩

/-- One more step. -/
theorem stateAt_succ (n : Nat) : stateAt step start schedule (n + 1) =
    (step (stateAt step start schedule n) (schedule n)).1 := by
  rw [stateAt, upTo_succ, exec_append]
  rfl

variable {step start schedule}

/-- A condition that an endless run meets at each time is met along what comes before a time. -/
theorem along_upTo {admits : State → Input → Prop}
    (met : ∀ n, admits (stateAt step start schedule n) (schedule n)) (n : Nat) :
    Along step admits start (upTo schedule n) := by
  induction n with
  | zero => trivial
  | succ n ih =>
    rw [upTo_succ, along_append]
    exact ⟨ih, met n, trivial⟩

/-- What each step of an endless run keeps is never lost. -/
theorem stateAt_invariant {inv : State → Prop} {first : Nat}
    (holds : inv (stateAt step start schedule first))
    (keeps : ∀ n, first ≤ n → inv (stateAt step start schedule n) →
      inv (step (stateAt step start schedule n) (schedule n)).1) {n : Nat} (later : first ≤ n) :
    inv (stateAt step start schedule n) := by
  induction n, later using Nat.le_induction with
  | base => exact holds
  | succ n later ih =>
    rw [stateAt_succ]
    exact keeps n later ih

variable {Effect : Type*} {act : State → Input → State × List Effect} {begin : State}

/-- The effects of one more step come last. -/
theorem effects_upTo_succ (n : Nat) : effects (trace act begin (upTo schedule (n + 1))) =
    effects (trace act begin (upTo schedule n)) ++
      (act (stateAt act begin schedule n) (schedule n)).2 := by
  rw [upTo_succ, trace_append, effects_append, stateAt]
  simp

end Schedules

section Steering

variable {State Input Output : Type*} (step : State → Input → State × Output)
  (choose : Nat → State → Input) (start : State)

/-- The states of an endless run whose inputs are chosen as it goes. -/
def steered : Nat → State
  | 0 => start
  | n + 1 => (step (steered n) (choose n (steered n))).1

/-- The inputs that are chosen. -/
def steering (n : Nat) : Input := choose n (steered step choose start n)

/-- The run of the inputs that are chosen is the run that they were chosen on. -/
theorem stateAt_steering (n : Nat) :
    stateAt step start (steering step choose start) n = steered step choose start n := by
  induction n with
  | zero => rfl
  | succ n ih =>
    rw [stateAt_succ, ih]
    rfl

end Steering

section Fairness

/-- Weak fairness: what is called for from some time on without an end happens. -/
def Fair (calls happens : Nat → Prop) : Prop :=
  ∀ n, (∀ m, n ≤ m → calls m) → ∃ m, n ≤ m ∧ happens m

/-- Strong fairness: what is called for again and again happens. -/
def StronglyFair (calls happens : Nat → Prop) : Prop :=
  ∀ n, (∀ k, ∃ m, k ≤ m ∧ calls m) → ∃ m, n ≤ m ∧ happens m

/-- The rule of help: before the end a kind of step helps, which happens when it goes on to be
the one that helps; a step makes the rank smaller, or it leaves the rank and what helps as they
are and is not of that kind. -/
theorem comes_about {Kind : Type*} {done : Nat → Prop} (happens : Kind → Nat → Prop)
    (rank : Nat → Nat) (helps : Nat → Kind) (first : Nat)
    (help : ∀ kind n, first ≤ n → (∀ m, n ≤ m → ¬ done m ∧ helps m = kind) →
      ∃ m, n ≤ m ∧ happens kind m)
    (onward : ∀ n, first ≤ n → ¬ done n → ¬ done (n + 1) → rank (n + 1) < rank n ∨
      rank (n + 1) = rank n ∧ helps (n + 1) = helps n ∧ ¬ happens (helps n) n) :
    ∃ m, first ≤ m ∧ done m := by
  by_contra never
  push Not at never
  -- From a time of the smallest rank on, nothing changes and so help comes, which lowers it.
  generalize bound : rank first = least
  induction least using Nat.strongRecOn generalizing first with
  | ind least ih =>
    by_cases lower : ∃ m, first ≤ m ∧ rank m < rank first
    · obtain ⟨m, later, less⟩ := lower
      exact ih (rank m) (bound ▸ less) m
        (fun kind n after => help kind n (Nat.le_trans later after))
        (fun n after => onward n (Nat.le_trans later after))
        (fun n after => never n (Nat.le_trans later after)) rfl
    · push Not at lower
      have still (m : Nat) (later : first ≤ m) : rank m = rank first ∧ helps m = helps first := by
        induction m, later using Nat.le_induction with
        | base => exact ⟨rfl, rfl⟩
        | succ m later same =>
          have notLess := lower (m + 1) (Nat.le_succ_of_le later)
          have next := never (m + 1) (Nat.le_succ_of_le later)
          rcases onward m later (never m later) next with less | ⟨rank, helps, _⟩
          · omega
          · exact ⟨rank.trans same.1, helps.trans same.2⟩
      obtain ⟨m, later, happened⟩ := help (helps first) first (Nat.le_refl first)
        fun m later => ⟨never m later, (still m later).2⟩
      have notLess := lower (m + 1) (Nat.le_succ_of_le later)
      have next := never (m + 1) (Nat.le_succ_of_le later)
      rcases onward m later (never m later) next with less | ⟨_, _, notYet⟩
      · have same := (still m later).1
        omega
      · rw [(still m later).2] at notYet
        exact notYet happened

/-- An amount that never falls comes to a target when, as long as it has not, something happens
again and again that makes it rise. -/
theorem rises_to {amount : Nat → Nat} (kept : ∀ n, amount n ≤ amount (n + 1))
    (happens : Nat → Prop) {target first : Nat}
    (help : ∀ n, first ≤ n → (∀ m, n ≤ m → amount m < target) → ∃ m, n ≤ m ∧ happens m)
    (rises : ∀ n, first ≤ n → amount n < target → happens n → amount n < amount (n + 1)) :
    ∃ m, first ≤ m ∧ target ≤ amount m := by
  apply comes_about (fun _ => happens) (fun n => target - amount n) (fun _ => ()) first
  · intro _ n later still
    exact help n later fun m after => Nat.lt_of_not_le (still m after).1
  · intro n later left _
    have less := Nat.lt_of_not_le left
    have next := kept n
    by_cases happened : happens n
    · have more := rises n later less happened
      exact Or.inl (by omega)
    · rcases Nat.lt_or_eq_of_le next with more | same
      · exact Or.inl (by omega)
      · exact Or.inr ⟨by rw [same], rfl, happened⟩

end Fairness

namespace Account

variable {State Input Effect Item : Type*} {account : Account State Effect Item}
  {step : State → Input → State × List Effect} {start : State} {schedule : Nat → Input}

/-- How many items an endless run has given out before a time. -/
def goneBefore (account : Account State Effect Item) (step : State → Input → State × List Effect)
    (start : State) (schedule : Nat → Input) (n : Nat) : Nat :=
  (account.gone (effects (trace step start (upTo schedule n)))).length

/-- The items given out in one step come last. -/
theorem goneBefore_succ (n : Nat) : account.goneBefore step start schedule (n + 1) =
    account.goneBefore step start schedule n +
      (account.gone (step (stateAt step start schedule n) (schedule n)).2).length := by
  rw [goneBefore, effects_upTo_succ, account.gone_append, List.length_append]
  rfl

/-- What has been given out has been given out. -/
theorem goneBefore_mono : Monotone (account.goneBefore step start schedule) := by
  apply monotone_nat_of_le_succ
  intro n
  rw [goneBefore_succ]
  exact Nat.le_add_right _ _

/-- What an endless run has taken in at a time stays taken in. -/
theorem came_upTo {early late : Nat} (before : early ≤ late) :
    ∃ more, account.came (effects (trace step start (upTo schedule late))) =
      account.came (effects (trace step start (upTo schedule early))) ++ more := by
  obtain ⟨more, split⟩ := upTo_le schedule before
  rw [split, trace_append, effects_append, account.came_append]
  exact ⟨_, rfl⟩

/-- What an endless run that balances held and had taken in at a time has been given out or is
held at each later time. -/
theorem before_le {early late : Nat} (before : early ≤ late)
    (balanced : account.after (effects (trace step start (upTo schedule late)))
        (stateAt step start schedule late) =
      account.before start (effects (trace step start (upTo schedule late)))) :
    (account.before start (effects (trace step start (upTo schedule early)))).length ≤
      account.goneBefore step start schedule late +
        (account.held (stateAt step start schedule late)).length := by
  obtain ⟨more, came⟩ : ∃ more, account.came (effects (trace step start (upTo schedule late))) =
      account.came (effects (trace step start (upTo schedule early))) ++ more :=
    came_upTo before
  have length := congrArg List.length balanced
  rw [Account.after, Account.before, came, List.length_append, List.length_append,
    List.length_append] at length
  rw [Account.before, List.length_append, goneBefore]
  omega

/-- An endless run that balances has given out all that it held and had taken in at a time,
when it has given out as many items. -/
theorem all_gone {early late : Nat} (before : early ≤ late)
    (balanced : account.after (effects (trace step start (upTo schedule late)))
        (stateAt step start schedule late) =
      account.before start (effects (trace step start (upTo schedule late))))
    (many : (account.before start (effects (trace step start (upTo schedule early)))).length ≤
      account.goneBefore step start schedule late) :
    account.before start (effects (trace step start (upTo schedule early))) <+:
      account.gone (effects (trace step start (upTo schedule late))) := by
  obtain ⟨more, came⟩ : ∃ more, account.came (effects (trace step start (upTo schedule late))) =
      account.came (effects (trace step start (upTo schedule early))) ++ more :=
    came_upTo before
  have first : account.gone (effects (trace step start (upTo schedule late))) <+:
      account.before start (effects (trace step start (upTo schedule late))) := by
    rw [← balanced]
    exact List.prefix_append _ _
  have second : account.before start (effects (trace step start (upTo schedule early))) <+:
      account.before start (effects (trace step start (upTo schedule late))) := by
    rw [Account.before, Account.before, came, ← List.append_assoc]
    exact List.prefix_append _ _
  exact List.prefix_of_prefix_length_le second first many

end Account

end Olimex2378.Run
