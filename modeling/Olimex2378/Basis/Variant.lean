import Olimex2378.Basis.Account

/-!
# Runs that get something done

Where a state in which work is left always has an input that makes a measure smaller, the work
is done after at most as many steps as the measure says. What is known of each of these steps
is known of the run, and an account that takes nothing in and loses nothing on it gives out all
that it held.
-/

namespace Olimex2378.Run

section Variant

variable {State Input Output : Type*} {step : State → Input → State × Output}
  {admits : State → Input → Prop}

/-- A condition that follows from another one is met where the other one is. -/
theorem Along.imp {other : State → Input → Prop}
    (follows : ∀ state input, admits state input → other state input) {start : State}
    {inputs : List Input} (met : Along step admits start inputs) :
    Along step other start inputs := by
  induction inputs generalizing start with
  | nil => trivial
  | cons input rest ih => exact ⟨follows start input met.1, ih met.2⟩

/-- A condition that tells something of its inputs alone tells it of all inputs of a run. -/
theorem Along.inputs {good : Input → Prop} (tells : ∀ state input, admits state input → good input)
    {start : State} {inputs : List Input} (met : Along step admits start inputs) :
    ∀ input ∈ inputs, good input := by
  induction inputs generalizing start with
  | nil => exact List.forall_mem_nil good
  | cons input rest ih => exact List.forall_mem_cons.2 ⟨tells start input met.1, ih met.2⟩

/-- A condition on the inputs alone is met along a run of inputs that meet it. -/
theorem along_of_inputs {good : Input → Prop} (start : State) {inputs : List Input}
    (all : ∀ input ∈ inputs, good input) : Along step (fun _ input => good input) start inputs := by
  induction inputs generalizing start with
  | nil => trivial
  | cons input rest ih =>
    obtain ⟨first, others⟩ := List.forall_mem_cons.1 all
    exact ⟨first, ih _ others⟩

/-- The rule for a measure: while work is left, some admitted input keeps an invariant and makes
the measure smaller. -/
theorem reaches (measure : State → Nat) {inv done : State → Prop}
    (next : ∀ state, inv state → ¬ done state →
      ∃ input, admits state input ∧ inv (step state input).1 ∧
        measure (step state input).1 < measure state)
    {start : State} (holds : inv start) :
    ∃ inputs, inputs.length ≤ measure start ∧ Along step admits start inputs ∧
      done (exec step start inputs) := by
  generalize bound : measure start = n
  induction n using Nat.strongRecOn generalizing start with
  | ind n ih =>
    by_cases finished : done start
    · exact ⟨[], Nat.zero_le n, trivial, finished⟩
    · obtain ⟨input, admitted, still, less⟩ := next start holds finished
      obtain ⟨inputs, length, met, reached⟩ := ih _ (by omega) still rfl
      refine ⟨input :: inputs, ?_, ⟨admitted, met⟩, reached⟩
      rw [List.length_cons]
      omega

end Variant

namespace Account

variable {State Input Effect Item : Type*} {account : Account State Effect Item}
  {step : State → Input → State × List Effect}

/-- Steps that take nothing in are a run that takes nothing in. -/
theorem came_run {start : State} {inputs : List Input}
    (nothing : Along step (fun state input => account.came (step state input).2 = []) start
      inputs) : account.came (effects (trace step start inputs)) = [] := by
  induction inputs generalizing start with
  | nil => exact account.came_nil
  | cons input rest ih =>
    rw [trace_cons, effects_cons, account.came_append, nothing.1, ih nothing.2, List.append_nil]

/-- A run that balances, takes nothing in and leaves nothing has given out what was held. -/
theorem gone_run {start : State} {inputs : List Input}
    (balanced : account.after (effects (trace step start inputs)) (exec step start inputs) =
      account.before start (effects (trace step start inputs)))
    (nothing : Along step (fun state input => account.came (step state input).2 = []) start
      inputs)
    (empty : account.held (exec step start inputs) = []) :
    account.gone (effects (trace step start inputs)) = account.held start := by
  rw [after, before, empty, came_run nothing, List.append_nil, List.append_nil] at balanced
  exact balanced

end Account

end Olimex2378.Run
