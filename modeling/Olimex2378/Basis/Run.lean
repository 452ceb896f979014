import Mathlib.Data.List.Basic

/-!
# Runs of a step function

A step function takes a state and an input to a state and an output. A run feeds it a
finite list of inputs; its trace pairs each input with the output of its step. Two rules
carry a property of one step to every run: `invariant`, for a property that relates the
state to the whole trace so far, and `along_or_refused`, which splits a run that leaves a
condition on its steps at the first step that leaves it. An observer may keep notes along a
run, and `observed_invariant` relates them to the state and the trace.
-/

namespace Olimex2378.Run

variable {State Input Output : Type*}

/-- State after every input has been taken in order. -/
def exec (step : State → Input → State × Output) (start : State) : List Input → State
  | [] => start
  | input :: rest => exec step (step start input).1 rest

/-- Each input of a run with the output of its step, in order. -/
def trace (step : State → Input → State × Output) (start : State) :
    List Input → List (Input × Output)
  | [] => []
  | input :: rest => (input, (step start input).2) :: trace step (step start input).1 rest

/-- Every step of the run starts in a state that admits its input. -/
def Along (step : State → Input → State × Output) (admits : State → Input → Prop)
    (start : State) : List Input → Prop
  | [] => True
  | input :: rest => admits start input ∧ Along step admits (step start input).1 rest

/-- A condition on steps that can be decided can be decided along a run. -/
instance Along.decidable (step : State → Input → State × Output)
    (admits : State → Input → Prop) [∀ state input, Decidable (admits state input)] :
    ∀ (start : State) (inputs : List Input), Decidable (Along step admits start inputs)
  | _, [] => isTrue trivial
  | start, input :: rest =>
    have := Along.decidable step admits (step start input).1 rest
    inferInstanceAs (Decidable (admits start input ∧ Along step admits (step start input).1 rest))

section Laws

variable (step : State → Input → State × Output) (admits : State → Input → Prop)

/-- A run over no input stays where it is. -/
@[simp] theorem exec_nil (start : State) : exec step start [] = start := rfl

/-- A run over no input has an empty trace. -/
@[simp] theorem trace_nil (start : State) : trace step start [] = [] := rfl

/-- A run over no input meets every condition on steps. -/
@[simp] theorem along_nil (start : State) : Along step admits start [] := trivial

/-- The first step of a run. -/
@[simp] theorem exec_cons (start : State) (input : Input) (rest : List Input) :
    exec step start (input :: rest) = exec step (step start input).1 rest := rfl

/-- The trace of the first step. -/
@[simp] theorem trace_cons (start : State) (input : Input) (rest : List Input) :
    trace step start (input :: rest) =
      (input, (step start input).2) :: trace step (step start input).1 rest := rfl

/-- The condition on the first step of a run. -/
@[simp] theorem along_cons (start : State) (input : Input) (rest : List Input) :
    Along step admits start (input :: rest) ↔
      admits start input ∧ Along step admits (step start input).1 rest := Iff.rfl

/-- A run over two lists is the second run from the end of the first. -/
@[simp] theorem exec_append (start : State) (first second : List Input) :
    exec step start (first ++ second) = exec step (exec step start first) second := by
  induction first generalizing start with
  | nil => rfl
  | cons input rest ih => exact ih _

/-- The trace over two lists is the two traces in order. -/
@[simp] theorem trace_append (start : State) (first second : List Input) :
    trace step start (first ++ second) =
      trace step start first ++ trace step (exec step start first) second := by
  induction first generalizing start with
  | nil => rfl
  | cons input rest ih => simp [ih]

/-- A run over two lists meets a condition when both of its parts do. -/
@[simp] theorem along_append (start : State) (first second : List Input) :
    Along step admits start (first ++ second) ↔
      Along step admits start first ∧ Along step admits (exec step start first) second := by
  induction first generalizing start with
  | nil => simp
  | cons input rest ih => simp [ih, and_assoc]

/-- The inputs of a trace are the inputs of the run. -/
@[simp] theorem trace_inputs (start : State) (inputs : List Input) :
    (trace step start inputs).map Prod.fst = inputs := by
  induction inputs generalizing start with
  | nil => rfl
  | cons input rest ih => simp [ih]

/-- An entry of a trace comes from an input of the run. -/
theorem trace_input_mem (start : State) {inputs : List Input} {entry : Input × Output}
    (member : entry ∈ trace step start inputs) : entry.1 ∈ inputs := by
  rw [← trace_inputs step start inputs]
  exact List.mem_map_of_mem member

end Laws

variable {step : State → Input → State × Output} {admits : State → Input → Prop}

/-- A condition no step can break holds along every run. -/
theorem along_of_forall (always : ∀ state input, admits state input) (start : State)
    (inputs : List Input) : Along step admits start inputs := by
  induction inputs generalizing start with
  | nil => trivial
  | cons input rest ih => exact ⟨always _ _, ih _⟩

/-- A run that meets two conditions meets both at each step. -/
theorem Along.and {other : State → Input → Prop} {start : State} {inputs : List Input}
    (first : Along step admits start inputs) (second : Along step other start inputs) :
    Along step (fun state input => admits state input ∧ other state input) start inputs := by
  induction inputs generalizing start with
  | nil => trivial
  | cons input rest ih => exact ⟨⟨first.1, second.1⟩, ih first.2 second.2⟩

/-- A property of the state and the trace so far that each admitted step keeps is kept by
every run of such steps. -/
theorem invariant_from (Inv : State → List (Input × Output) → Prop)
    (keep : ∀ state history input, Inv state history → admits state input →
      Inv (step state input).1 (history ++ [(input, (step state input).2)]))
    {inputs : List Input} {state : State} {history : List (Input × Output)}
    (holds : Inv state history) (met : Along step admits state inputs) :
    Inv (exec step state inputs) (history ++ trace step state inputs) := by
  induction inputs generalizing state history with
  | nil => simpa using holds
  | cons input rest ih =>
    have next := ih (keep state history input holds met.1) met.2
    simpa using next

/-- A property of the state and the trace so far holds at the end of every run whose steps
meet a condition, when it holds of the start and each such step keeps it. -/
theorem invariant (Inv : State → List (Input × Output) → Prop) {start : State}
    (initial : Inv start [])
    (keep : ∀ state history input, Inv state history → admits state input →
      Inv (step state input).1 (history ++ [(input, (step state input).2)]))
    {inputs : List Input} (met : Along step admits start inputs) :
    Inv (exec step start inputs) (trace step start inputs) :=
  invariant_from Inv keep initial met

/-- A property that every step keeps holds at the end of every run. -/
theorem invariant_of_forall (Inv : State → List (Input × Output) → Prop) {start : State}
    (initial : Inv start [])
    (keep : ∀ state history input, Inv state history →
      Inv (step state input).1 (history ++ [(input, (step state input).2)]))
    (inputs : List Input) : Inv (exec step start inputs) (trace step start inputs) := by
  have met : Along step (fun _ _ => True) start inputs :=
    along_of_forall (fun _ _ => trivial) start inputs
  exact invariant Inv initial (fun state history input holds _ => keep state history input holds)
    met

/-- A run meets a condition throughout, or it splits at the first step that does not. -/
theorem along_or_refused (step : State → Input → State × Output)
    (admits : State → Input → Prop) (start : State) (inputs : List Input) :
    Along step admits start inputs ∨
      ∃ before input after, inputs = before ++ input :: after ∧
        Along step admits start before ∧ ¬ admits (exec step start before) input := by
  induction inputs generalizing start with
  | nil => exact Or.inl trivial
  | cons input rest ih =>
    by_cases first : admits start input
    · rcases ih (step start input).1 with met | ⟨before, refused, after, split, met, broken⟩
      · exact Or.inl ⟨first, met⟩
      · exact Or.inr ⟨input :: before, refused, after, by simp [split], ⟨first, met⟩, broken⟩
    · exact Or.inr ⟨[], input, rest, rfl, trivial, first⟩

/-- A property holds at the end of exactly the runs that meet a condition throughout, when it
holds of the start, each step that meets the condition keeps it, and each step that does not
breaks it for good. -/
theorem holds_iff_along (Holds Broken : State → List (Input × Output) → Prop) {start : State}
    (initial : Holds start [])
    (keeps : ∀ state history input, Holds state history → admits state input →
      Holds (step state input).1 (history ++ [(input, (step state input).2)]))
    (breaks : ∀ state history input, Holds state history → ¬ admits state input →
      Broken (step state input).1 (history ++ [(input, (step state input).2)]))
    (stays : ∀ state history input, Broken state history →
      Broken (step state input).1 (history ++ [(input, (step state input).2)]))
    (excludes : ∀ state history, Broken state history → ¬ Holds state history)
    (inputs : List Input) :
    Holds (exec step start inputs) (trace step start inputs) ↔ Along step admits start inputs := by
  constructor
  · intro holds
    rcases along_or_refused step admits start inputs with
      met | ⟨before, input, after, rfl, met, refused⟩
    · exact met
    · have broken := breaks _ _ input (invariant Holds initial keeps met) refused
      have anything : Along step (fun _ _ => True) (step (exec step start before) input).1 after :=
        along_of_forall (fun _ _ => trivial) _ after
      have final := invariant_from Broken (fun state history input holds _ =>
        stays state history input holds) broken anything
      rw [exec_append, exec_cons, trace_append, trace_cons] at holds
      rw [List.append_assoc] at final
      exact absurd holds (excludes _ _ final)
  · exact invariant Holds initial keeps

section Notes

variable {Seen : Type*}

/-- What an observer of each step has noted at the end of a run. -/
def observe (step : State → Input → State × Output) (note : State → Seen → Input → Seen)
    (start : State) (seen : Seen) : List Input → Seen
  | [] => seen
  | input :: rest => observe step note (step start input).1 (note start seen input) rest

/-- A property of the state, the trace so far and the notes that every step keeps is kept by
every run. -/
theorem observed_invariant_from {note : State → Seen → Input → Seen}
    (Inv : State → List (Input × Output) → Seen → Prop)
    (keep : ∀ state history seen input, Inv state history seen →
      Inv (step state input).1 (history ++ [(input, (step state input).2)])
        (note state seen input))
    {state : State} {history : List (Input × Output)} {seen : Seen}
    (holds : Inv state history seen) (inputs : List Input) :
    Inv (exec step state inputs) (history ++ trace step state inputs)
      (observe step note state seen inputs) := by
  induction inputs generalizing state history seen with
  | nil => simpa [observe] using holds
  | cons input rest ih =>
    have next := ih (keep state history seen input holds)
    simpa [observe] using next

/-- A property of the state, the trace so far and the notes holds at the end of every run, when
it holds of the start and every step keeps it. -/
theorem observed_invariant {note : State → Seen → Input → Seen}
    (Inv : State → List (Input × Output) → Seen → Prop) {start : State} {seen : Seen}
    (initial : Inv start [] seen)
    (keep : ∀ state history seen input, Inv state history seen →
      Inv (step state input).1 (history ++ [(input, (step state input).2)])
        (note state seen input))
    (inputs : List Input) :
    Inv (exec step start inputs) (trace step start inputs)
      (observe step note start seen inputs) :=
  observed_invariant_from Inv keep initial inputs

end Notes

section Outputs

variable {Effect : Type*}

/-- The effects of a trace whose steps each put out a list of effects, in order. -/
def effects (history : List (Input × List Effect)) : List Effect := history.flatMap Prod.snd

/-- No step has no effect. -/
@[simp] theorem effects_nil : effects ([] : List (Input × List Effect)) = [] := rfl

/-- The effects of the first step come first. -/
@[simp] theorem effects_cons (entry : Input × List Effect) (rest : List (Input × List Effect)) :
    effects (entry :: rest) = entry.2 ++ effects rest := rfl

/-- The effects of two traces are taken in order. -/
@[simp] theorem effects_append (first second : List (Input × List Effect)) :
    effects (first ++ second) = effects first ++ effects second := by
  simp [effects]

/-- The effects of one more step come last. -/
theorem effects_snoc (history : List (Input × List Effect)) (entry : Input × List Effect) :
    effects (history ++ [entry]) = effects history ++ entry.2 := by
  simp

end Outputs

end Olimex2378.Run
