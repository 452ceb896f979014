import Olimex2378.Basis.Run

/-!
# Two runs over the same inputs

A simulation relates the states of a step function to the states of a model that takes the
same inputs: what is seen of the outputs is then the model's trace, and two states with the
same model behave alike. A step function is independent on a part of its state when the
inputs that belong to the part read nothing else and the others leave the part alone: what a
run shows of the part is then a run of the part's own inputs.
-/

namespace Olimex2378.Run

variable {State Input Output : Type*}

/-- Number of steps of a run that start in a state and with an input of some kind. -/
def count (step : State → Input → State × Output) (counts : State → Input → Bool)
    (start : State) : List Input → Nat
  | [] => 0
  | input :: rest =>
    (if counts start input then 1 else 0) + count step counts (step start input).1 rest

section Simulation

variable {Model Seen : Type*} {step : State → Input → State × Output}
  {model : Model → Input → Model × Seen} {seen : Output → Seen}
  {admits : State → Input → Prop} {allows : Model → Input → Prop}
  {related : State → Model → Prop}

/-- A step that is admitted stays related to the model, shows what the model shows, and is
admitted exactly when the model allows it. -/
structure Simulates (step : State → Input → State × Output)
    (model : Model → Input → Model × Seen) (seen : Output → Seen)
    (admits : State → Input → Prop) (allows : Model → Input → Prop)
    (related : State → Model → Prop) : Prop where
  /-- The states stay related. -/
  keeps : ∀ state abstract input, related state abstract → admits state input →
    related (step state input).1 (model abstract input).1
  /-- The outputs look the same. -/
  shows : ∀ state abstract input, related state abstract → admits state input →
    seen (step state input).2 = (model abstract input).2
  /-- The two sides admit the same inputs. -/
  admitted : ∀ state abstract input, related state abstract →
    (admits state input ↔ allows abstract input)

variable (simulation : Simulates step model seen admits allows related)
include simulation

/-- The states at the end of two related runs are related. -/
theorem Simulates.exec {state : State} {abstract : Model} (start : related state abstract)
    {inputs : List Input} (met : Along step admits state inputs) :
    related (exec step state inputs) (exec model abstract inputs) := by
  induction inputs generalizing state abstract with
  | nil => exact start
  | cons input rest ih =>
    exact ih (simulation.keeps state abstract input start met.1) met.2

/-- What is seen of a run is the trace of the model. -/
theorem Simulates.trace {state : State} {abstract : Model} (start : related state abstract)
    {inputs : List Input} (met : Along step admits state inputs) :
    (trace step state inputs).map (fun entry => (entry.1, seen entry.2)) =
      trace model abstract inputs := by
  induction inputs generalizing state abstract with
  | nil => rfl
  | cons input rest ih =>
    have first := simulation.shows state abstract input start met.1
    have later := ih (simulation.keeps state abstract input start met.1) met.2
    rw [trace_cons, trace_cons, List.map_cons, first, later]

/-- A run is admitted throughout exactly when the run of the model is allowed throughout. -/
theorem Simulates.along {state : State} {abstract : Model} (start : related state abstract)
    (inputs : List Input) :
    Along step admits state inputs ↔ Along model allows abstract inputs := by
  induction inputs generalizing state abstract with
  | nil => rfl
  | cons input rest ih =>
    rw [along_cons, along_cons, ← simulation.admitted state abstract input start]
    constructor
    · intro met
      exact ⟨met.1, (ih (simulation.keeps state abstract input start met.1)).1 met.2⟩
    · intro met
      exact ⟨met.1, (ih (simulation.keeps state abstract input start met.1)).2 met.2⟩

/-- Two states with the same model run alike: one run is admitted when the other is, and what
is seen of the two is the same. -/
theorem Simulates.alike {first second : State} {abstract : Model}
    (left : related first abstract) (right : related second abstract) {inputs : List Input}
    (met : Along step admits first inputs) :
    Along step admits second inputs ∧
      (Run.trace step first inputs).map (fun entry => (entry.1, seen entry.2)) =
        (Run.trace step second inputs).map (fun entry => (entry.1, seen entry.2)) := by
  have allowed := (simulation.along left inputs).1 met
  have other := (simulation.along right inputs).2 allowed
  constructor
  · exact other
  · rw [simulation.trace left met, simulation.trace right other]

/-- Steps that count on both sides are equally many. -/
theorem Simulates.count {counts : State → Input → Bool} {marks : Model → Input → Bool}
    (same : ∀ state abstract input, related state abstract →
      counts state input = marks abstract input)
    {state : State} {abstract : Model} (start : related state abstract)
    {inputs : List Input} (met : Along step admits state inputs) :
    Run.count step counts state inputs = Run.count model marks abstract inputs := by
  induction inputs generalizing state abstract with
  | nil => rfl
  | cons input rest ih =>
    have later := ih (simulation.keeps state abstract input start met.1) met.2
    rw [Run.count, Run.count, same state abstract input start, later]

end Simulation

section Independence

variable {View : Type*} {step : State → Input → State × Output} {mine : Input → Bool}
  {view : State → View}

/-- A part of the state is changed by its own inputs alone, and what they do depends on that
part alone. -/
structure Independent (step : State → Input → State × Output) (mine : Input → Bool)
    (view : State → View) : Prop where
  /-- An input of the part leaves it the same way from states that agree on it. -/
  own : ∀ state other input, mine input = true → view state = view other →
    view (step state input).1 = view (step other input).1
  /-- An input of the part has the same output from states that agree on it. -/
  output : ∀ state other input, mine input = true → view state = view other →
    (step state input).2 = (step other input).2
  /-- Any other input leaves the part as it was. -/
  frame : ∀ state input, mine input = false → view (step state input).1 = view state

variable (independent : Independent step mine view)
include independent

/-- The part at the end of a run is what its own inputs alone make of it. -/
theorem Independent.exec {state other : State} (same : view state = view other)
    (inputs : List Input) :
    view (exec step state inputs) = view (exec step other (inputs.filter mine)) := by
  induction inputs generalizing state other with
  | nil => exact same
  | cons input rest ih =>
    cases own : mine input with
    | true =>
      rw [List.filter_cons_of_pos own]
      exact ih (independent.own state other input own same)
    | false =>
      rw [List.filter_cons_of_neg (by simp [own])]
      exact ih ((independent.frame state input own).trans same)

/-- What the inputs of the part put out in a run is what they put out alone. -/
theorem Independent.trace {state other : State} (same : view state = view other)
    (inputs : List Input) :
    (trace step state inputs).filter (fun entry => mine entry.1) =
      trace step other (inputs.filter mine) := by
  induction inputs generalizing state other with
  | nil => rfl
  | cons input rest ih =>
    rw [trace_cons]
    cases own : mine input with
    | true =>
      have first := independent.output state other input own same
      have later := ih (independent.own state other input own same)
      rw [List.filter_cons_of_pos (by exact own), List.filter_cons_of_pos own, trace_cons, later,
        first]
    | false =>
      have later := ih ((independent.frame state input own).trans same)
      have other : ¬ mine input = true := by simp [own]
      rw [List.filter_cons_of_neg (by exact other), List.filter_cons_of_neg other, later]

end Independence

end Olimex2378.Run
