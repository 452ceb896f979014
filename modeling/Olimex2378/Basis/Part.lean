import Olimex2378.Basis.Run

/-!
# Parts of a system

A system of several parts takes one step at a time, and for a part that step is a run of its
own inputs, often of one input or of none. What is known of every run of the part then holds
inside every run of the system.
-/

namespace Olimex2378.Run

variable {State Input Effect PartState PartInput PartEffect : Type*}

/-- What the inputs of a run are for a part of the system. -/
def inputsOf (step : State → Input → State × List Effect)
    (acts : State → Input → List PartInput) (start : State) : List Input → List PartInput
  | [] => []
  | input :: rest => acts start input ++ inputsOf step acts (step start input).1 rest

/-- Each step of a system is, for one part of it, a run of the part. -/
structure Part (step : State → Input → State × List Effect)
    (own : PartState → PartInput → PartState × List PartEffect) where
  /-- The part's state. -/
  part : State → PartState
  /-- What an input of the system is for the part. -/
  acts : State → Input → List PartInput
  /-- The part's effects. -/
  seen : List Effect → List PartEffect
  /-- Effects are seen in their order. -/
  seen_append : ∀ first second, seen (first ++ second) = seen first ++ seen second
  /-- The part takes its inputs. -/
  moves : ∀ state input, part (step state input).1 = exec own (part state) (acts state input)
  /-- The part's effects are those of its inputs. -/
  shows : ∀ state input,
    seen (step state input).2 = effects (trace own (part state) (acts state input))

namespace Part

variable {step : State → Input → State × List Effect}
  {own : PartState → PartInput → PartState × List PartEffect} (part : Part step own)

/-- No effect shows nothing. -/
@[simp] theorem seen_nil : part.seen [] = [] := by
  have twice := congrArg List.length (part.seen_append [] [])
  rw [List.append_nil, List.length_append] at twice
  apply List.eq_nil_of_length_eq_zero
  omega

/-- The part's inputs in a run. -/
def inputs (start : State) (inputs : List Input) : List PartInput :=
  inputsOf step part.acts start inputs

/-- What is seen of a run of the system is what the run of the part puts out. -/
theorem effects_run (start : State) (inputs : List Input) :
    part.seen (effects (trace step start inputs)) =
      effects (trace own (part.part start) (part.inputs start inputs)) := by
  induction inputs generalizing start with
  | nil => exact part.seen_nil
  | cons input rest ih =>
    have now := part.shows start input
    have next := part.moves start input
    have split : part.inputs start (input :: rest) =
        part.acts start input ++ part.inputs (step start input).1 rest := rfl
    rw [trace_cons, effects_cons, part.seen_append, now, ih, split, trace_append, effects_append,
      next]

/-- A condition on the part's inputs that every admitted step meets is met along its run. -/
theorem along_run {admits : State → Input → Prop} {allows : PartState → PartInput → Prop}
    (meets : ∀ state input, admits state input →
      Along own allows (part.part state) (part.acts state input))
    {start : State} {inputs : List Input} (met : Along step admits start inputs) :
    Along own allows (part.part start) (part.inputs start inputs) := by
  induction inputs generalizing start with
  | nil => trivial
  | cons input rest ih =>
    have now := meets start input met.1
    have later := ih met.2
    rw [part.moves] at later
    exact (along_append own allows (part.part start) (part.acts start input) _).2 ⟨now, later⟩

end Part

end Olimex2378.Run
