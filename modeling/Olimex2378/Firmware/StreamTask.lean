import Olimex2378.Firmware.Events

/-!
# The sampler loop

`stream_task` of `datapath-test.c`. An iteration acts on the run state, then polls for a
command and acts on it, so the two halves are separate functions. What the commands do to
the run state does not depend on the transport: `iterate` is an iteration with the results
of `VCOM_getchar` and `VCOM_putchar` given. What the loop prints on the debug port is left
out, except that it prints `INVALID STATE`.
-/

namespace Olimex2378.Firmware

/-- `runstate_type`, stored as a number: the compiler does not confine a variable of an
enumeration type to its constants. -/
abbrev RunstateType := CInt

/-- `GO`. -/
def RunstateType.go : RunstateType := 0

/-- `STOP`. -/
def RunstateType.stop : RunstateType := 1

/-- `RESET`. -/
def RunstateType.reset : RunstateType := 2

/-- The variables that outlive an iteration. -/
structure StreamTask where
  /-- `runstate_g.state`. -/
  state : RunstateType
  /-- The sample number; it wraps at 32 bits. -/
  index : CInt

/-- What the switch statement does to the outside. -/
inductive Sample
  /-- It calls `VCOM_putword`. -/
  | word (c : CInt)
  /-- It does nothing. -/
  | silent
  /-- It prints `INVALID STATE`. -/
  | invalid

/-- The variables when `stream_task` enters its loop. -/
def StreamTask.start : StreamTask := { state := .reset, index := 0 }

/-- The switch statement. -/
def StreamTask.switch (t : StreamTask) : StreamTask × Sample :=
  if t.state = .go then ({ t with index := t.index + 1 }, .word (t.index + 1))
  else if t.state = .stop then (t, .silent)
  else if t.state = .reset then ({ state := .stop, index := 0 }, .silent)
  else (t, .invalid)

/-- The characters that are sent back when they are no command. -/
def printable (c : CInt) : Bool :=
  c = 9 || c = 10 || c = 13 || (BitVec.sle 32 c && BitVec.sle c 126)

/-- What is done with the value of `VCOM_getchar`, up to the call of `VCOM_putchar`: the
character to send back, if there is one. -/
def StreamTask.command (t : StreamTask) (c : CInt) : StreamTask × Option CInt :=
  if c ≠ eof then
    if c = charConst 'g' then ({ t with state := .go }, none)
    else if c = charConst 's' then ({ t with state := .stop }, none)
    else if c = charConst 'm' then (t, none)
    else if c = charConst 'r' then ({ t with state := .reset }, none)
    else if printable c then (t, some c)
    else (t, none)
  else (t, none)

/-- What is done with the value of `VCOM_putchar`. -/
def StreamTask.echoed (t : StreamTask) (success : CInt) : StreamTask :=
  if success = eof then { t with state := .reset } else t

/-- What an iteration finds: the byte that `VCOM_getchar` takes, if there is one, and
whether `VCOM_putchar`, if it is called, finds room. -/
structure Poll where
  /-- The byte taken. -/
  received : Option UInt8
  /-- The echo is accepted. -/
  taken : Bool

/-- The value that `VCOM_getchar` returns. -/
def Poll.c (poll : Poll) : CInt :=
  match poll.received with
  | none => eof
  | some byte => ofByte byte

/-- What an iteration does to the outside. -/
structure Iteration where
  /-- Of the switch statement. -/
  sample : Sample
  /-- The character passed to `VCOM_putchar`. -/
  echo : Option CInt

/-- The second half of an iteration. -/
def StreamTask.answer (t : StreamTask) (poll : Poll) : StreamTask × Option CInt :=
  match t.command poll.c with
  | (t, none) => (t, none)
  | (t, some c) => (t.echoed (if poll.taken then c else eof), some c)

/-- An iteration of the loop. -/
def StreamTask.iterate (t : StreamTask) (poll : Poll) : StreamTask × Iteration :=
  let (t, sample) := t.switch
  let (t, echo) := t.answer poll
  (t, { sample, echo })

/-- The word passed to `VCOM_putword`. -/
def Sample.putword : Sample → Option CInt
  | .word c => some c
  | _ => none

/-- An iteration with nothing to send back ends with its command. -/
theorem answer_of_silent {t : StreamTask} {poll : Poll} (silent : (t.command poll.c).2 = none) :
    t.answer poll = t.command poll.c := by
  unfold StreamTask.answer
  rcases commanded : t.command poll.c with ⟨next, _ | c⟩
  · rfl
  · simp [commanded] at silent

/-- Which bytes are printable. -/
theorem printable_ofByte (byte : UInt8) :
    printable (ofByte byte) = true ↔ byte = 9 ∨ byte = 10 ∨ byte = 13 ∨
      (32 ≤ byte ∧ byte ≤ 126) := by
  have value := ofByte_toInt byte
  have nine : (9 : CInt) = ofByte 9 := rfl
  have ten : (10 : CInt) = ofByte 10 := rfl
  have thirteen : (13 : CInt) = ofByte 13 := rfl
  have low : (32 : CInt).toInt = 32 := rfl
  have high : (126 : CInt).toInt = 126 := rfl
  have least : (32 : UInt8).toNat = 32 := rfl
  have most : (126 : UInt8).toNat = 126 := rfl
  simp only [printable, nine, ten, thirteen, ofByte_inj, BitVec.sle_eq_decide, low, high, value,
    Bool.or_eq_true, Bool.and_eq_true, decide_eq_true_eq, UInt8.le_iff_toNat_le, least, most,
    or_assoc]
  exact_mod_cast Iff.rfl

end Olimex2378.Firmware
