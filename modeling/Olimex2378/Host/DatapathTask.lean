import Olimex2378.Basis.Bytes
import Olimex2378.Basis.CInt
import Olimex2378.Basis.Run

/-!
# The host program

The loop of `datapath_task` in the host program of `datapath-test`: it polls the terminal,
then the serial port, and never waits. Its variable `value_serial` is a `long int` of eight
bytes, low byte first, and a read overwrites as many of them as it returns. What the system
calls return is given for each iteration; of what the loop writes, the fixed texts are left
out.
-/

namespace Olimex2378.Host

open Bytes

/-- What `read` returns for one byte of the terminal. -/
inductive StdinRead
  /-- An error. -/
  | failed
  /-- No key has been typed. -/
  | empty
  /-- A key. -/
  | key (typed : UInt8)

/-- What a non-blocking `read` of some size returns. -/
inductive SerialRead (size : Nat)
  /-- An error; there may be no data yet. -/
  | failed
  /-- End of file. -/
  | empty
  /-- Some bytes. -/
  | data (bytes : List UInt8) (positive : 0 < bytes.length) (fits : bytes.length ≤ size)

/-- What an iteration meets. A result of a call that the iteration does not make is not
looked at. -/
structure Poll where
  /-- `read` from the terminal. -/
  stdin : StdinRead
  /-- `flush_port`. -/
  flush : CInt
  /-- `time`. -/
  now : Int
  /-- `read` from the serial port. -/
  serial : SerialRead 8

/-- How the loop stands. -/
inductive Status
  /-- It goes on. -/
  | looping
  /-- It was left by `break`. -/
  | quit
  /-- The program has called `exit(EXIT_FAILURE)`. -/
  | failed
  deriving DecidableEq

/-- The variables that outlive an iteration. -/
structure DatapathTask where
  /-- Where the loop stands. -/
  status : Status
  /-- Bytes received since the last `g`. -/
  bytecount : CInt
  /-- The eight bytes of `value_serial`. -/
  valueSerial : Vector UInt8 8
  /-- The last key typed. -/
  valueStdin : CInt
  /-- `begin`, the time of the last `g`. -/
  beginTime : Int

/-- What the loop does that can be seen. -/
inductive Effect
  /-- `flush_port` is called. -/
  | flushPort
  /-- A byte is written to the serial port. -/
  | write (byte : UInt8)
  /-- The average rate is printed, from a count and two times. -/
  | averageRate (bytecount : CInt) (beginTime endTime : Int)
  /-- A read of the serial port has returned some bytes. -/
  | serialRead (bytes : List UInt8)
  /-- A number is printed. -/
  | printed (value : Nat)
  /-- A number is written to the log, in two notations. -/
  | logged (value : Nat)

/-- The variables when the loop is entered; `begin` has not been written then. -/
def DatapathTask.start (beginTime : Int) : DatapathTask where
  status := .looping
  bytecount := 0
  valueSerial := Vector.replicate 8 0
  valueStdin := 0
  beginTime

/-- The terminal's part of an iteration, and whether the iteration goes on after it. -/
def DatapathTask.terminal (t : DatapathTask) (poll : Poll) : DatapathTask × List Effect × Bool :=
  match poll.stdin with
  | .failed => (t, [], true)
  | .empty => (t, [], true)
  | .key typed =>
    let t := { t with valueStdin := ofByte typed }
    if t.valueStdin = charConst 'f' then
      if poll.flush ≠ 0 then ({ t with status := .failed }, [.flushPort], false)
      else (t, [.flushPort], false)
    else if t.valueStdin = charConst 'g' then
      ({ t with beginTime := poll.now, bytecount := 0 }, [.write typed], true)
    else if t.valueStdin = charConst 's' then
      (t, [.write typed, .averageRate t.bytecount t.beginTime poll.now], true)
    else (t, [.write typed], true)

/-- The serial port's part of an iteration. -/
def DatapathTask.serial (quiet : CInt) (t : DatapathTask) :
    SerialRead 8 → DatapathTask × List Effect
  | .failed => (t, [])
  | .empty => (t, [])
  | .data bytes _ _ =>
    let t := { t with
      valueSerial := overwrite t.valueSerial bytes
      bytecount := t.bytecount + BitVec.ofNat 32 bytes.length }
    let value := leValue t.valueSerial.toList
    (t, .serialRead bytes :: if quiet = 0 then [.printed value, .logged value] else [])

/-- An iteration of the loop. -/
def DatapathTask.iterate (quiet : CInt) (t : DatapathTask) (poll : Poll) :
    DatapathTask × List Effect :=
  match t.terminal poll with
  | (t, out, false) => (t, out)
  | (t, out, true) =>
    if t.valueStdin = charConst 'q' then ({ t with status := .quit }, out)
    else
      let (t, later) := t.serial quiet poll.serial
      (t, out ++ later)

/-- An iteration while the loop goes on; nothing after it has been left. -/
def DatapathTask.step (quiet : CInt) (t : DatapathTask) (poll : Poll) :
    DatapathTask × List Effect :=
  if t.status = .looping then t.iterate quiet poll else (t, [])

section Step

variable (quiet : CInt) {t next : DatapathTask} {poll : Poll} {out : List Effect}

/-- The terminal's part ends the iteration. -/
theorem DatapathTask.step_cut (looping : t.status = .looping)
    (terminal : t.terminal poll = (next, out, false)) : t.step quiet poll = (next, out) := by
  rw [DatapathTask.step, if_pos looping, DatapathTask.iterate, terminal]

/-- The loop is left when the last key was `q`. -/
theorem DatapathTask.step_quits (looping : t.status = .looping)
    (terminal : t.terminal poll = (next, out, true)) (quit : next.valueStdin = charConst 'q') :
    t.step quiet poll = ({ next with status := .quit }, out) := by
  rw [DatapathTask.step, if_pos looping, DatapathTask.iterate, terminal]
  exact if_pos quit

/-- The serial port is read when it was another. -/
theorem DatapathTask.step_polls (looping : t.status = .looping)
    (terminal : t.terminal poll = (next, out, true)) (stays : next.valueStdin ≠ charConst 'q') :
    t.step quiet poll =
      ((next.serial quiet poll.serial).1, out ++ (next.serial quiet poll.serial).2) := by
  rw [DatapathTask.step, if_pos looping, DatapathTask.iterate, terminal]
  exact if_neg stays

end Step

/-- What a step comes to, from the terminal's part of it. -/
inductive DatapathTask.Stepped (quiet : CInt) (t : DatapathTask) (poll : Poll) :
    DatapathTask × List Effect → Prop
  /-- The loop has been left already. -/
  | stopped (left : t.status ≠ .looping) : Stepped quiet t poll (t, [])
  /-- The terminal's part ends the iteration. -/
  | cut (looping : t.status = .looping) (next : DatapathTask) (out : List Effect)
      (terminal : t.terminal poll = (next, out, false)) : Stepped quiet t poll (next, out)
  /-- The last key was `q`. -/
  | quits (looping : t.status = .looping) (next : DatapathTask) (out : List Effect)
      (terminal : t.terminal poll = (next, out, true)) (quit : next.valueStdin = charConst 'q') :
      Stepped quiet t poll ({ next with status := .quit }, out)
  /-- The serial port is read. -/
  | polls (looping : t.status = .looping) (next : DatapathTask) (out : List Effect)
      (terminal : t.terminal poll = (next, out, true)) (stays : next.valueStdin ≠ charConst 'q') :
      Stepped quiet t poll
        ((next.serial quiet poll.serial).1, out ++ (next.serial quiet poll.serial).2)

/-- Every step is one of these. -/
theorem DatapathTask.stepped (quiet : CInt) (t : DatapathTask) (poll : Poll) :
    Stepped quiet t poll (t.step quiet poll) := by
  by_cases looping : t.status = .looping
  · rcases terminal : t.terminal poll with ⟨next, out, goesOn⟩
    cases goesOn with
    | false =>
      rw [step_cut quiet looping terminal]
      exact .cut looping next out terminal
    | true =>
      by_cases quit : next.valueStdin = charConst 'q'
      · rw [step_quits quiet looping terminal quit]
        exact .quits looping next out terminal quit
      · rw [step_polls quiet looping terminal quit]
        exact .polls looping next out terminal quit
  · rw [DatapathTask.step, if_neg looping]
    exact .stopped looping

/-- The byte lists that successful reads of the serial port returned. -/
def reads (out : List Effect) : List (List UInt8) :=
  out.filterMap fun effect => match effect with
    | .serialRead bytes => some bytes
    | _ => none

/-- The numbers printed. -/
def printed (out : List Effect) : List Nat :=
  out.filterMap fun effect => match effect with
    | .printed value => some value
    | _ => none

/-- The numbers written to the log. -/
def logged (out : List Effect) : List Nat :=
  out.filterMap fun effect => match effect with
    | .logged value => some value
    | _ => none

section Readings

variable (first second : List Effect)

/-- Reads of two lists of effects are taken in order. -/
@[simp] theorem reads_append : reads (first ++ second) = reads first ++ reads second := by
  simp [reads]

/-- Numbers printed in two lists of effects are taken in order. -/
@[simp] theorem printed_append :
    printed (first ++ second) = printed first ++ printed second := by simp [printed]

/-- Numbers logged in two lists of effects are taken in order. -/
@[simp] theorem logged_append :
    logged (first ++ second) = logged first ++ logged second := by simp [logged]

end Readings

end Olimex2378.Host
