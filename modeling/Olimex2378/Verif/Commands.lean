import Mathlib.Data.List.DropRight
import Olimex2378.Basis.Run
import Olimex2378.Firmware.StreamTask

/-!
# The command history

What the sampler loop does in an iteration is a function of the commands and echo failures
of the iterations before it: it sends a word when the last of them that controls the loop
is `g`, and the word counts the words sent since the last reset. `RESET` is a state for one
switch statement only, so it is read as the stopped loop with its count already cleared;
no command can come between a reset and its effect. That the sampler over its transport runs
these iterations, wherever interrupts fall, is `Firmware.sampler_rounds`.
-/

namespace Olimex2378.Verif.Commands

open Firmware Run

/-- An event that controls the loop. -/
inductive Control
  /-- `g` was received. -/
  | go
  /-- `s` was received. -/
  | stop
  /-- `r` was received, or an echo failed. -/
  | reset
  deriving DecidableEq

/-- A byte that is sent back. -/
def Echoed (byte : UInt8) : Prop :=
  (byte = 9 ∨ byte = 10 ∨ byte = 13 ∨ (32 ≤ byte ∧ byte ≤ 126)) ∧
    byte ∉ ['g'.toUInt8, 's'.toUInt8, 'm'.toUInt8, 'r'.toUInt8]

/-- The condition can be evaluated. -/
instance Echoed.decidable (byte : UInt8) : Decidable (Echoed byte) :=
  inferInstanceAs (Decidable (_ ∧ _))

/-- What a received byte controls, by itself or because its echo fails. -/
def byteControl (byte : UInt8) (taken : Bool) : Option Control :=
  if byte = 'g'.toUInt8 then some .go
  else if byte = 's'.toUInt8 then some .stop
  else if byte = 'r'.toUInt8 then some .reset
  else if Echoed byte ∧ taken = false then some .reset
  else none

/-- What an iteration controls. -/
def control (poll : Poll) : Option Control :=
  poll.received.bind fun byte => byteControl byte poll.taken

/-- The last event that controls the loop. -/
def lastControl (polls : List Poll) : Option Control := (polls.filterMap control).getLast?

/-- Number of words sent since the last reset. -/
def wordsSinceReset (history : List (Poll × Iteration)) : Nat :=
  (history.rtakeWhile fun entry => control entry.1 ≠ some .reset).countP
    fun entry => entry.2.sample.putword.isSome

/-- The characters passed to `VCOM_putchar`. -/
def echoes (history : List (Poll × Iteration)) : List CInt :=
  history.filterMap fun entry => entry.2.echo

/-- The bytes that are to be sent back. -/
def echoable (polls : List Poll) : List UInt8 :=
  (polls.filterMap Poll.received).filter fun byte => Echoed byte

/-- The state that the loop will be in after its next switch statement, unless it samples. -/
def settled (t : StreamTask) : StreamTask :=
  if t.state = .reset then { state := .stop, index := 0 } else t

/-- The switch statement sends a word when the loop runs, and settles a reset. -/
theorem switch_spec {t : StreamTask}
    (valid : t.state = .go ∨ t.state = .stop ∨ t.state = .reset) :
    t.switch.1.state = (settled t).state ∧
      t.switch.1.index = (settled t).index +
        (if t.state = .go then 1 else 0) ∧
      t.switch.2 = if t.state = .go then .word ((settled t).index + 1) else .silent := by
  obtain ⟨state, index⟩ := t
  have one : RunstateType.go ≠ RunstateType.reset := by decide
  have two : RunstateType.stop ≠ RunstateType.reset := by decide
  have three : RunstateType.stop ≠ RunstateType.go := by decide
  rcases valid with rfl | rfl | rfl
  · simp [StreamTask.switch, settled, one]
  · simp [StreamTask.switch, settled, two, three]
  · simp [StreamTask.switch, settled, one.symm, two.symm]

/-- The run state that a control event leaves. -/
def Control.state : Control → RunstateType
  | .go => .go
  | .stop => .stop
  | .reset => .reset

/-- A character constant is the reading of its byte. -/
theorem charConst_eq : charConst 'g' = ofByte 'g'.toUInt8 ∧ charConst 's' = ofByte 's'.toUInt8 ∧
    charConst 'm' = ofByte 'm'.toUInt8 ∧ charConst 'r' = ofByte 'r'.toUInt8 := by
  decide

/-- The second half of an iteration follows the command, and sends back what is no command. -/
theorem answer_spec (t : StreamTask) (poll : Poll) :
    (t.answer poll).1.state = ((control poll).map Control.state).getD t.state ∧
      (t.answer poll).1.index = t.index ∧
      (t.answer poll).2 = (poll.received.filter fun byte => Echoed byte).map ofByte := by
  obtain ⟨received, taken⟩ := poll
  cases received with
  | none => exact ⟨rfl, rfl, rfl⟩
  | some byte =>
    obtain ⟨isG, isS, isM, isR⟩ := charConst_eq
    have shown := printable_ofByte byte
    simp only [StreamTask.answer, StreamTask.command, Poll.c, control, Option.bind_some,
      byteControl, ofByte_ne_eof, ne_eq, not_false_eq_true, if_true, isG, isS, isM, isR, ofByte_inj]
    by_cases g : byte = 'g'.toUInt8
    · subst g
      exact ⟨rfl, rfl, rfl⟩
    by_cases s : byte = 's'.toUInt8
    · subst s
      exact ⟨rfl, rfl, rfl⟩
    by_cases m : byte = 'm'.toUInt8
    · subst m
      exact ⟨rfl, rfl, rfl⟩
    by_cases r : byte = 'r'.toUInt8
    · subst r
      exact ⟨rfl, rfl, rfl⟩
    have echoed : Echoed byte ↔ printable (ofByte byte) = true := by
      rw [shown]
      simp [Echoed, g, s, m, r]
    by_cases echo : printable (ofByte byte) = true
    · cases taken with
      | false => simp [g, s, m, r, echo, echoed, StreamTask.echoed, Control.state]
      | true => simp [g, s, m, r, echo, echoed, StreamTask.echoed, ofByte_ne_eof]
    · simp [g, s, m, r, echo, echoed]

/-- An iteration, from the settled state it starts in and the event it meets. -/
theorem iterate_spec {t : StreamTask}
    (valid : t.state = .go ∨ t.state = .stop ∨ t.state = .reset) (poll : Poll) :
    (t.iterate poll).1.state = ((control poll).map Control.state).getD (settled t).state ∧
      (t.iterate poll).1.index = (settled t).index + (if t.state = .go then 1 else 0) ∧
      (t.iterate poll).2.sample =
        (if t.state = .go then .word ((settled t).index + 1) else .silent) ∧
      (t.iterate poll).2.echo = (poll.received.filter fun byte => Echoed byte).map ofByte := by
  obtain ⟨state, index, sample⟩ := switch_spec valid
  obtain ⟨nextState, nextIndex, echo⟩ := answer_spec t.switch.1 poll
  rw [state] at nextState
  rw [index] at nextIndex
  exact ⟨nextState, nextIndex, sample, echo⟩

/-- A settled state is not reset, and runs when the state did. -/
theorem settled_state {t : StreamTask}
    (valid : t.state = .go ∨ t.state = .stop ∨ t.state = .reset) :
    ((settled t).state = .go ∨ (settled t).state = .stop) ∧
      ((settled t).state = .go ↔ t.state = .go) := by
  by_cases reset : t.state = .reset
  · simp only [settled, reset, if_true]
    decide
  · simp only [settled, if_neg reset, iff_self, and_true]
    tauto

/-- A state that is not reset is settled. -/
theorem settled_of_running {t : StreamTask} (running : t.state = .go ∨ t.state = .stop) :
    settled t = t := by
  have reset : t.state ≠ .reset := by
    rcases running with go | stop
    · rw [go]
      decide
    · rw [stop]
      decide
  rw [settled, if_neg reset]

/-- The last control event of a longer history. -/
theorem lastControl_append (polls : List Poll) (poll : Poll) :
    lastControl (polls ++ [poll]) = (control poll).or (lastControl polls) := by
  unfold lastControl
  rw [List.filterMap_append]
  cases event : control poll with
  | none => simp [event]
  | some controls => simp [event]

/-- The words since the last reset of a longer history. -/
theorem wordsSinceReset_append (history : List (Poll × Iteration)) (entry : Poll × Iteration) :
    wordsSinceReset (history ++ [entry]) =
      if control entry.1 = some .reset then 0
      else wordsSinceReset history + (if entry.2.sample.putword.isSome then 1 else 0) := by
  unfold wordsSinceReset
  rw [List.rtakeWhile_concat]
  by_cases reset : control entry.1 = some .reset
  · simp [reset]
  · simp [reset, List.countP_append, List.countP_singleton]

/-- The bytes to be sent back of a longer history. -/
theorem echoable_append (polls : List Poll) (poll : Poll) :
    echoable (polls ++ [poll]) =
      echoable polls ++ (poll.received.filter fun byte => Echoed byte).toList := by
  unfold echoable
  rw [List.filterMap_append, List.filter_append]
  cases received : poll.received with
  | none => simp [received]
  | some byte => by_cases echo : Echoed byte <;> simp [received, echo, Option.filter]

/-- The loop agrees with its history. -/
structure Tracks (t : StreamTask) (history : List (Poll × Iteration)) : Prop where
  /-- The run state is one of the three. -/
  valid : t.state = .go ∨ t.state = .stop ∨ t.state = .reset
  /-- The loop runs when the last control event is `g`. -/
  going : t.state = .go ↔ lastControl (history.map Prod.fst) = some .go
  /-- The sample number counts the words since the last reset. -/
  count : (settled t).index = BitVec.ofNat 32 (wordsSinceReset history)
  /-- What is no command has been sent back. -/
  sent : echoes history = (echoable (history.map Prod.fst)).map ofByte

/-- The loop starts stopped, with nothing counted. -/
theorem tracks_start : Tracks StreamTask.start [] where
  valid := by decide
  going := by decide
  count := by decide
  sent := rfl

/-- The run state after an iteration is one of the three, and follows the last control
event. -/
theorem tracks_state {t : StreamTask} {history : List (Poll × Iteration)}
    (tracks : Tracks t history) (poll : Poll) :
    ((t.iterate poll).1.state = .go ∨ (t.iterate poll).1.state = .stop ∨
        (t.iterate poll).1.state = .reset) ∧
      ((t.iterate poll).1.state = .go ↔
        lastControl (history.map Prod.fst ++ [poll]) = some .go) := by
  obtain ⟨state, _, _, _⟩ := iterate_spec tracks.valid poll
  obtain ⟨running, goes⟩ := settled_state tracks.valid
  have stop : RunstateType.stop ≠ .go := by decide
  have reset : RunstateType.reset ≠ .go := by decide
  rw [state, lastControl_append]
  cases event : control poll with
  | none =>
    constructor
    · exact running.imp_right Or.inl
    · exact goes.trans tracks.going
  | some controls => cases controls <;> simp [Control.state, stop, reset]

/-- The sample number after an iteration counts the words since the last reset, none when the
iteration itself met one. -/
theorem tracks_count {t : StreamTask} {history : List (Poll × Iteration)}
    (tracks : Tracks t history) (poll : Poll) :
    (settled (t.iterate poll).1).index =
      BitVec.ofNat 32 (wordsSinceReset (history ++ [(poll, (t.iterate poll).2)])) := by
  obtain ⟨state, index, sample, _⟩ := iterate_spec tracks.valid poll
  rw [wordsSinceReset_append]
  by_cases reset : control poll = some .reset
  · have resets : (t.iterate poll).1.state = .reset := by
      rw [state, reset]
      rfl
    rw [if_pos reset, settled, if_pos resets]
    rfl
  · have running : (t.iterate poll).1.state = .go ∨ (t.iterate poll).1.state = .stop := by
      rw [state]
      cases event : control poll with
      | none => exact (settled_state tracks.valid).1
      | some controls =>
        cases controls with
        | go => exact Or.inl rfl
        | stop => exact Or.inr rfl
        | reset => exact absurd event reset
    rw [if_neg reset, settled_of_running running, index, tracks.count, sample, BitVec.ofNat_add]
    by_cases go : t.state = .go
    · simp [go, Sample.putword]
    · simp [go, Sample.putword]

/-- An iteration keeps the loop in agreement with its history. -/
theorem tracks_step {t : StreamTask} {history : List (Poll × Iteration)}
    (tracks : Tracks t history) (poll : Poll) :
    Tracks (t.iterate poll).1 (history ++ [(poll, (t.iterate poll).2)]) := by
  obtain ⟨valid, going⟩ := tracks_state tracks poll
  obtain ⟨_, _, _, echo⟩ := iterate_spec tracks.valid poll
  refine ⟨valid, by simpa using going, tracks_count tracks poll, ?_⟩
  have before := tracks.sent
  unfold echoes at before ⊢
  rw [List.filterMap_append, before, List.map_append, List.map_singleton, echoable_append,
    List.map_append]
  cases byte : poll.received.filter fun byte => Echoed byte with
  | none => simp [echo, byte]
  | some byte => simp [echo, byte]

/-- The sampler loop follows its command history. After any iterations, the next one sends a
word exactly when the last control event was `g`, and then the number of words since the last
reset plus one, modulo 2^32; it never finds an invalid state; and the characters passed to
`VCOM_putchar` so far are the bytes received that are to be sent back, in order. -/
theorem history_exact (polls : List Poll) (poll : Poll) :
    ((exec StreamTask.iterate StreamTask.start polls).iterate poll).2.sample.putword =
        (if lastControl polls = some .go then
          some (BitVec.ofNat 32
            (1 + wordsSinceReset (trace StreamTask.iterate StreamTask.start polls)))
        else none) ∧
      ((exec StreamTask.iterate StreamTask.start polls).iterate poll).2.sample ≠ .invalid ∧
      echoes (trace StreamTask.iterate StreamTask.start polls) =
        (echoable polls).map ofByte := by
  have tracks : Tracks (exec StreamTask.iterate StreamTask.start polls)
      (trace StreamTask.iterate StreamTask.start polls) :=
    invariant_of_forall Tracks tracks_start (fun _ _ poll tracks => tracks_step tracks poll) polls
  obtain ⟨_, _, sample, _⟩ := iterate_spec tracks.valid poll
  have going := tracks.going
  have sent := tracks.sent
  rw [trace_inputs] at going sent
  rw [sample, tracks.count, Nat.add_comm 1, BitVec.ofNat_add]
  by_cases go : (exec StreamTask.iterate StreamTask.start polls).state = .go
  · rw [if_pos go, if_pos (going.mp go)]
    exact ⟨rfl, by simp, sent⟩
  · rw [if_neg go, if_neg (mt going.mpr go)]
    exact ⟨rfl, by simp, sent⟩

end Olimex2378.Verif.Commands
