import Mathlib.Data.List.Basic

/-!
# Loops and the times of their events

A loop repeats a body until the body leaves it. It is run with fuel, and what it does is read
off its passes: once these are known, every larger fuel gives their outputs. Some outputs are
events, and the time of an event is the number of passes made up to and including its own. A
loop whose passes fall into segments of one length, with one event at the end of each, has its
events at the multiples of that length.
-/

namespace Olimex2378.Loop

variable {State Output Event : Type*}

/-- The outputs of a loop, whose body leaves it by returning nothing; no result when the fuel
is used up. -/
def run (body : State → Option (State × Output)) : (fuel : Nat) → State → Option (List Output)
  | 0, _ => none
  | fuel + 1, state =>
    match body state with
    | none => some []
    | some (next, output) => (run body fuel next).map (output :: ·)

/-- Passes of a loop from one state to another, with their outputs. -/
inductive Passes (body : State → Option (State × Output)) : State → List Output → State → Prop
  /-- No pass. -/
  | none (state : State) : Passes body state [] state
  /-- One pass and those after it. -/
  | next {state next last : State} {output : Output} {outputs : List Output}
      (pass : body state = some (next, output)) (later : Passes body next outputs last) :
      Passes body state (output :: outputs) last

section Passes

variable {body : State → Option (State × Output)}

/-- Passes in succession. -/
theorem Passes.append {first middle last : State} {before after : List Output}
    (early : Passes body first before middle) (late : Passes body middle after last) :
    Passes body first (before ++ after) last := by
  induction early with
  | none => exact late
  | next pass _ ih => exact .next pass (ih late)

/-- A loop that leaves its body after some passes returns their outputs. -/
theorem run_of_passes {first last : State} {outputs : List Output}
    (passes : Passes body first outputs last) (leaves : body last = none) {fuel : Nat}
    (enough : outputs.length < fuel) : run body fuel first = some outputs := by
  induction passes generalizing fuel with
  | none state =>
    cases fuel with
    | zero => omega
    | succ fuel => rw [run, leaves]
  | @next state next last output outputs pass later ih =>
    cases fuel with
    | zero => omega
    | succ fuel =>
      rw [List.length_cons] at enough
      have rest : run body fuel next = some outputs := ih leaves (by omega)
      rw [run, pass]
      show (run body fuel next).map (output :: ·) = some (output :: outputs)
      rw [rest, Option.map_some]

/-- Segments of passes that follow one another. -/
theorem passes_segments {segment : Nat → List Output} {state : Nat → State} {count : Nat}
    (each : ∀ k < count, Passes body (state k) (segment k) (state (k + 1))) :
    Passes body (state 0) ((List.range count).flatMap segment) (state count) := by
  induction count with
  | zero => exact .none (state 0)
  | succ count ih =>
    have earlier := ih fun k below => each k (by omega)
    have joined := earlier.append (each count (Nat.lt_succ_self count))
    rwa [List.range_succ, List.flatMap_append, List.flatMap_singleton]

/-- Segments of one length. -/
theorem length_segments {segment : Nat → List Output} {period : Nat}
    (each : ∀ k, (segment k).length = period) (count : Nat) :
    ((List.range count).flatMap segment).length = count * period := by
  induction count with
  | zero => rw [Nat.zero_mul]; rfl
  | succ count ih =>
    rw [List.range_succ, List.flatMap_append, List.flatMap_singleton, List.length_append, ih,
      each, Nat.succ_mul]

end Passes

section Events

variable (event : Output → Option Event)

/-- The events among some outputs, each with its time, when some passes were made before. -/
def timed : (time : Nat) → List Output → List (Nat × Event)
  | _, [] => []
  | time, output :: rest =>
    ((event output).map (time + 1, ·)).toList ++ timed (time + 1) rest

/-- Outputs in succession have their events in succession. -/
theorem timed_append (time : Nat) (before after : List Output) :
    timed event time (before ++ after) =
      timed event time before ++ timed event (time + before.length) after := by
  induction before generalizing time with
  | nil => rfl
  | cons output rest ih =>
    have later : time + (output :: rest).length = time + 1 + rest.length := by
      rw [List.length_cons]
      omega
    rw [List.cons_append, timed, timed, ih, later, List.append_assoc]

/-- The events without their times. -/
theorem timed_events (time : Nat) (outputs : List Output) :
    (timed event time outputs).map Prod.snd = outputs.filterMap event := by
  induction outputs generalizing time with
  | nil => rfl
  | cons output rest ih =>
    rw [timed, List.map_append, ih, List.filterMap_cons]
    cases event output with
    | none => rfl
    | some found => rfl

/-- Outputs that are no events. -/
theorem timed_silent (time : Nat) {outputs : List Output}
    (silent : ∀ output ∈ outputs, event output = none) : timed event time outputs = [] := by
  induction outputs generalizing time with
  | nil => rfl
  | cons output rest ih =>
    have later := ih (time + 1) fun other member =>
      silent other (List.mem_cons_of_mem output member)
    have first : event output = none := silent output List.mem_cons_self
    rw [timed, first, later]
    rfl

/-- A segment with one event, in its last pass. -/
theorem timed_segment (time : Nat) {quiet : List Output} {last : Output} {found : Event}
    (silent : ∀ output ∈ quiet, event output = none) (ends : event last = some found) :
    timed event time (quiet ++ [last]) = [(time + (quiet ++ [last]).length, found)] := by
  have length : time + (quiet ++ [last]).length = time + quiet.length + 1 := by
    rw [List.length_append, List.length_singleton]
    omega
  rw [timed_append, timed_silent event time silent, length, timed, ends]
  rfl

/-- Segments of one length with one event each have their events at multiples of the length. -/
theorem timed_segments {segment : Nat → List Output} {found : Nat → Event} {period : Nat}
    (each : ∀ k, (segment k).length = period)
    (single : ∀ k time, timed event time (segment k) = [(time + period, found k)]) (count : Nat) :
    timed event 0 ((List.range count).flatMap segment) =
      (List.range count).map fun k => ((k + 1) * period, found k) := by
  induction count with
  | zero => rfl
  | succ count ih =>
    have time : 0 + ((List.range count).flatMap segment).length + period =
        (count + 1) * period := by
      rw [length_segments each, Nat.succ_mul]
      omega
    rw [List.range_succ, List.flatMap_append, List.flatMap_singleton, timed_append, ih, single,
      time, List.map_append, List.map_singleton]

end Events

section Alternating

variable [DecidableEq Event]

/-- In an alternating list the first event has the larger half of the places, and the other one
the smaller half. -/
theorem count_alternating {first second : Event} (different : first ≠ second) (count : Nat) :
    let events := (List.range count).map fun k => if k % 2 = 0 then first else second
    events.count first = (count + 1) / 2 ∧ events.count second = count / 2 := by
  induction count with
  | zero => exact ⟨rfl, rfl⟩
  | succ count ih =>
    obtain ⟨firsts, seconds⟩ := ih
    show ((List.range (count + 1)).map _).count first = _ ∧
      ((List.range (count + 1)).map _).count second = _
    rw [List.range_succ, List.map_append, List.count_append, List.count_append, firsts, seconds]
    by_cases even : count % 2 = 0
    · rw [List.map_singleton, if_pos even, List.count_singleton_self,
        List.count_singleton, if_neg (by simpa using different)]
      omega
    · rw [List.map_singleton, if_neg even, List.count_singleton_self,
        List.count_singleton, if_neg (by simpa using different.symm)]
      omega

end Alternating

end Olimex2378.Loop
