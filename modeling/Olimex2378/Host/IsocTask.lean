import Olimex2378.Host.DatapathTask

/-!
# The host program of the isochronous variant

The loop of `datapath_task` in the host program of `dp-isoc`. It is that of `datapath-test`
without the quiet mode and without the rate report, and its variable `value_serial` is an
`int` of four bytes, which a read of up to four bytes overwrites.
-/

namespace Olimex2378.Host

open Bytes

/-- What an iteration meets. -/
structure IsocPoll where
  /-- `read` from the terminal. -/
  stdin : StdinRead
  /-- `flush_port`. -/
  flush : CInt
  /-- `read` from the serial port. -/
  serial : SerialRead 4

/-- The variables that outlive an iteration. -/
structure IsocTask where
  /-- Where the loop stands. -/
  status : Status
  /-- The four bytes of `value_serial`. -/
  valueSerial : Vector UInt8 4
  /-- The last key typed. -/
  valueStdin : CInt

/-- The variables when the loop is entered. -/
def IsocTask.start : IsocTask where
  status := .looping
  valueSerial := Vector.replicate 4 0
  valueStdin := 0

/-- The terminal's part of an iteration, and whether the iteration goes on after it. -/
def IsocTask.terminal (t : IsocTask) (poll : IsocPoll) : IsocTask × List Effect × Bool :=
  match poll.stdin with
  | .failed => (t, [], true)
  | .empty => (t, [], true)
  | .key typed =>
    let t := { t with valueStdin := ofByte typed }
    if t.valueStdin = charConst 'f' then
      if poll.flush ≠ 0 then ({ t with status := .failed }, [.flushPort], false)
      else (t, [.flushPort], false)
    else (t, [.write typed], true)

/-- The serial port's part of an iteration. -/
def IsocTask.serial (t : IsocTask) : SerialRead 4 → IsocTask × List Effect
  | .failed => (t, [])
  | .empty => (t, [])
  | .data bytes _ _ =>
    let t := { t with valueSerial := overwrite t.valueSerial bytes }
    let value := leValue t.valueSerial.toList
    (t, [.serialRead bytes, .printed value, .logged value])

/-- An iteration of the loop. -/
def IsocTask.iterate (t : IsocTask) (poll : IsocPoll) : IsocTask × List Effect :=
  match t.terminal poll with
  | (t, out, false) => (t, out)
  | (t, out, true) =>
    if t.valueStdin = charConst 'q' then ({ t with status := .quit }, out)
    else
      let (t, later) := t.serial poll.serial
      (t, out ++ later)

/-- An iteration while the loop goes on; nothing after it has been left. -/
def IsocTask.step (t : IsocTask) (poll : IsocPoll) : IsocTask × List Effect :=
  if t.status = .looping then t.iterate poll else (t, [])

end Olimex2378.Host
