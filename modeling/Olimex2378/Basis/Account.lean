import Olimex2378.Basis.Run

/-!
# Accounts over runs

A system takes items in, holds some of them and gives items out, and a step may lose items
that it held. One step never adds, repeats or reorders an item when what it gives out and then
holds is found, in order, in what it held and took in. The rule carries this to every run, and
a run loses nothing exactly when none of its steps does.
-/

namespace Olimex2378.Run

/-- What a state holds, oldest item first, and what effects take in and give out. -/
structure Account (State Effect Item : Type*) where
  /-- The items on their way. -/
  held : State → List Item
  /-- The items taken in. -/
  came : List Effect → List Item
  /-- The items given out. -/
  gone : List Effect → List Item
  /-- Items are taken in in the order of the effects. -/
  came_append : ∀ first second, came (first ++ second) = came first ++ came second
  /-- Items are given out in the order of the effects. -/
  gone_append : ∀ first second, gone (first ++ second) = gone first ++ gone second

namespace Account

variable {State Input Effect Item : Type*}

section Totals

variable (account : Account State Effect Item)

/-- No effect takes in no item. -/
@[simp] theorem came_nil : account.came [] = [] := by
  have twice := congrArg List.length (account.came_append [] [])
  rw [List.append_nil, List.length_append] at twice
  apply List.eq_nil_of_length_eq_zero
  omega

/-- No effect gives out no item. -/
@[simp] theorem gone_nil : account.gone [] = [] := by
  have twice := congrArg List.length (account.gone_append [] [])
  rw [List.append_nil, List.length_append] at twice
  apply List.eq_nil_of_length_eq_zero
  omega

/-- What effects give out and a state then holds. -/
def after (out : List Effect) (next : State) : List Item := account.gone out ++ account.held next

/-- What a state held and effects took in. -/
def before (state : State) (out : List Effect) : List Item :=
  account.held state ++ account.came out

/-- The two sides of the account of a step and of what follows it, put together. -/
theorem split_step (state next last : State) (out later : List Effect) :
    account.after (out ++ later) last = account.gone out ++ account.after later last ∧
      account.before state (out ++ later) = account.before state out ++ account.came later ∧
      account.gone out ++ account.before next later =
        account.after out next ++ account.came later := by
  simp only [after, before, account.gone_append, account.came_append, List.append_assoc,
    and_self]

end Totals

variable {account : Account State Effect Item} {step : State → Input → State × List Effect}
  {admits : State → Input → Prop}

/-- The two sides of a step that may lose items, and of the run that follows it. -/
theorem chained {state next last : State} {out later : List Effect}
    (one : (account.after out next).Sublist (account.before state out))
    (rest : (account.after later last).Sublist (account.before next later)) :
    (account.after (out ++ later) last).Sublist (account.before state (out ++ later)) ∧
      (account.after (out ++ later) last = account.before state (out ++ later) ↔
        account.after out next = account.before state out ∧
          account.after later last = account.before next later) := by
  obtain ⟨left, right, middle⟩ := account.split_step state next last out later
  have first : (account.gone out ++ account.after later last).Sublist
      (account.gone out ++ account.before next later) := rest.append_left _
  have second : (account.after out next ++ account.came later).Sublist
      (account.before state out ++ account.came later) := one.append_right _
  rw [middle] at first
  rw [left, right]
  refine ⟨first.trans second, ?_⟩
  constructor
  · intro equal
    have total := congrArg List.length equal
    have inner := first.length_le
    have outer := second.length_le
    have joined := congrArg List.length middle
    simp only [List.length_append] at total inner outer joined
    constructor
    · apply one.eq_of_length
      omega
    · apply rest.eq_of_length
      omega
  · rintro ⟨same, still⟩
    rw [still, middle, same]

/-- A run whose steps neither add nor reorder items neither adds nor reorders any. -/
theorem sublist_run (account : Account State Effect Item)
    (one : ∀ state input, admits state input →
      (account.after (step state input).2 (step state input).1).Sublist
        (account.before state (step state input).2))
    {state : State} {inputs : List Input} (met : Along step admits state inputs) :
    (account.after (effects (trace step state inputs)) (exec step state inputs)).Sublist
      (account.before state (effects (trace step state inputs))) := by
  induction inputs generalizing state with
  | nil => simp [after, before]
  | cons input rest ih => exact (chained (one state input met.1) (ih met.2)).1

/-- A run loses no item exactly when none of its steps does. -/
theorem exact_iff_along (account : Account State Effect Item) {keeps : State → Input → Prop}
    (one : ∀ state input, admits state input →
      (account.after (step state input).2 (step state input).1).Sublist
        (account.before state (step state input).2))
    (loses : ∀ state input, admits state input →
      (account.after (step state input).2 (step state input).1 =
        account.before state (step state input).2 ↔ keeps state input))
    {state : State} {inputs : List Input} (met : Along step admits state inputs) :
    account.after (effects (trace step state inputs)) (exec step state inputs) =
        account.before state (effects (trace step state inputs)) ↔
      Along step keeps state inputs := by
  induction inputs generalizing state with
  | nil => simp [after, before]
  | cons input rest ih =>
    have later := account.sublist_run one met.2
    rw [along_cons, ← loses state input met.1, ← ih met.2]
    exact (chained (one state input met.1) later).2

end Account

end Olimex2378.Run
