import Olimex2378.Host.DatapathTask
import Olimex2378.Host.SerialPort

/-!
# The host program around its loop

The rest of `datapath-host.c`: `dp_read`, `init_stdin`, `reset_stdin`, and `datapath_task`
from its setup to its shutdown. A run is given what every call returns, those of the loop for
each iteration. It ends by returning, by `exit(EXIT_FAILURE)` with a line on `stderr`, or by
using the log file although it could not be opened; progress messages are left out.
-/

namespace Olimex2378.Host

open Bytes Run

/-- What becomes of a `read` of some number of bytes. -/
inductive ReadResult (numbytes : BitVec 32)
  /-- It fails and sets `errno`. -/
  | failed (errno : CInt)
  /-- It returns some bytes, or none at the end of file. -/
  | data (bytes : List UInt8) (fits : bytes.length ≤ numbytes.toNat)

/-- The value that `read` returns, kept in a `uint32_t`. -/
def ReadResult.value {numbytes : BitVec 32} : ReadResult numbytes → BitVec 32
  | .failed _ => -1
  | .data bytes _ => BitVec.ofNat 32 bytes.length

/-- Where a pointer of `dp_read` points. -/
inductive Pointer
  /-- Nowhere. -/
  | null
  /-- To the caller's variable. -/
  | caller

/-- The caller's variable after a read through a pointer. -/
def Pointer.filled {numbytes : BitVec 32} (value : Pointer) (memory : List UInt8) :
    ReadResult numbytes → List UInt8
  | .failed _ => memory
  | .data bytes _ =>
    match value with
    | .null => memory
    | .caller => bytes ++ memory.drop bytes.length

/-- What `dp_read` leaves, returns and reports. -/
structure DpRead where
  /-- The bytes of the caller's variable. -/
  memory : List UInt8
  /-- The value returned. -/
  bytesRead : BitVec 32
  /-- The lines logged. -/
  messages : List String

/-- The lines that `dp_read` logs, by the value of `read` and not by `errno`. -/
def dpReadMessages (bytesRead : BitVec 32) : List String :=
  if bytesRead = eagain then []
  else if bytesRead = ebadf then
    ["dp_read: fd is not a valid file descriptor or is not open for reading.\n"]
  else if bytesRead = efault then
    ["dp_read: buf is outside your accessible address space.\n"]
  else if bytesRead = eintr then
    ["dp_read: The call was interrupted by a signal before any data was read.\n"]
  else if bytesRead = einval then
    ["dp_read: fd is attached to an object which is unsuitable for reading; or the file was " ++
      "opened with the O_DIRECT flag, and either the address specified in buf, the value " ++
      "specified in count, or the current file offset is not suitably aligned.\n"]
  else if bytesRead = eio then
    ["dp_read: I/O error. This will happen for example when the process is in a background " ++
      "process group, tries to read from its controlling tty, and either it is ignoring or " ++
      "blocking SIGTTIN or its process group is orphaned. It may also occur when there is a " ++
      "low-level I/O error while reading from a disk or tape.\n"]
  else if bytesRead = eisdir then ["dp_read: fd refers to a directory.\n"]
  else []

/-- `dp_read`. Its `value = 0x0` sets the pointer and not the variable that it points to. -/
def dpRead {numbytes : BitVec 32} (memory : List UInt8) (result : ReadResult numbytes) : DpRead :=
  let value := Pointer.null
  { memory := value.filled memory result
    bytesRead := result.value
    messages := dpReadMessages result.value }

variable {T : Type}

/-- `VMIN_VALUE`. -/
def vminValue : UInt8 := 0

/-- `VTIME_VALUE`. -/
def vtimeValue : UInt8 := 0

/-- The system calls of `init_stdin`. -/
structure StdinCalls where
  /-- The `tcgetattr` whose result is looked at. -/
  tcgetattr : SysCall
  /-- The `tcgetattr` that keeps the original settings. -/
  tcgetattrOrig : SysCall
  /-- `tcsetattr`. -/
  tcsetattr : SysCall

/-- The settings that `init_stdin` makes of others. -/
def stdinTermios (lib : TermiosLib T) (tios : T) : T :=
  let tios := lib.clearIcanon tios
  let tios := lib.setEcho tios
  let tios := lib.setVmin tios vminValue
  lib.setVtime tios vtimeValue

/-- `init_stdin`. -/
def initStdin (lib : TermiosLib T) (calls : StdinCalls) (session : Session T) : Returned T :=
  if calls.tcgetattr.value ≠ 0 then
    { session, value := -1
      messages := ["init_stdin: Error getting current terminal settings\n"] }
  else
    let tios := stdinTermios lib session.stdin
    let session := { session with
      origStdinTios := calls.tcgetattrOrig.store session.stdin session.origStdinTios }
    if calls.tcsetattr.value ≠ 0 then
      { session, value := -1, messages := ["init_stdin: Error applying terminal settings\n"] }
    else { session := { session with stdin := tios }, value := 0, messages := [] }

/-- `reset_stdin`. -/
def resetStdin (tcsetattr : SysCall) (session : Session T) : Returned T :=
  let session := { session with
    stdin := tcsetattr.store session.origStdinTios session.stdin
    stdinReset := some tcsetattr }
  if tcsetattr.value ≠ 0 then
    { session, value := -1, messages := ["reset_stdin: failed to reset attributes on stdin.\n"] }
  else { session, value := 0, messages := [] }

/-- What an iteration of the loop meets, with the `tcflush` of its `flush_port`. -/
structure SessionPoll where
  /-- `read` from the terminal. -/
  stdin : StdinRead
  /-- `tcflush`. -/
  tcflush : SysCall
  /-- `time`. -/
  now : Int
  /-- `read` from the serial port. -/
  serial : SerialRead 8

/-- The iteration with the value that `flush_port` returns. -/
def SessionPoll.poll (fd : CInt) (poll : SessionPoll) : Poll where
  stdin := poll.stdin
  flush := (flushPort fd poll.tcflush).1
  now := poll.now
  serial := poll.serial

/-- The calls of a run of `datapath_task`. -/
structure Calls where
  /-- `fopen` opens the log file. -/
  logOpens : Bool
  /-- Those of `init_port_raw`. -/
  port : PortCalls
  /-- Those of `init_stdin`. -/
  stdin : StdinCalls
  /-- The `tcflush` before the loop. -/
  tcflush : SysCall
  /-- The iterations of the loop. -/
  polls : List SessionPoll
  /-- The `tcsetattr` of `close_port`. -/
  tcsetattrPort : SysCall
  /-- The `close` of `close_port`. -/
  close : SysCall
  /-- The `tcsetattr` of `reset_stdin`. -/
  tcsetattrStdin : SysCall

/-- How a run stands. -/
inductive Ending
  /-- It is in the loop. -/
  | looping
  /-- It has returned. -/
  | returned
  /-- It has called `exit(EXIT_FAILURE)` after a line on `stderr`. -/
  | exited (message : String)
  /-- It has used the null pointer that `fopen` returned. -/
  | crashed

/-- How the loop stands after some iterations, when it has not crashed. -/
def loopEnding : Status → Ending
  | .looping => .looping
  | .quit => .returned
  | .failed => .exited "flush port failed.\n"

/-- The loop from an iteration: it crashes when it logs a number without a log file, and is
left by `break` where the ending is `returned`. -/
def loopFrom (quiet : CInt) (logOpens : Bool) (fd : CInt) (t : DatapathTask) :
    List SessionPoll → Ending
  | [] => loopEnding t.status
  | poll :: rest =>
    let (t, out) := t.step quiet (poll.poll fd)
    if !logOpens && !(logged out).isEmpty then .crashed
    else
      match t.status with
      | .looping => loopFrom quiet logOpens fd t rest
      | status => loopEnding status

/-- A run and what it leaves. -/
structure Ended (T : Type) where
  /-- The settings and originals. -/
  session : Session T
  /-- How it stands. -/
  ending : Ending

/-- `datapath_task` after its loop. -/
def shutdown (calls : Calls) (fd : CInt) (session : Session T) : Ended T :=
  let closed := closePort fd calls.tcsetattrPort calls.close session
  if closed.value ≠ 0 then
    { session := closed.session
      ending := .exited ("Unable to close fd: " ++ toString fd.toInt ++ "\n") }
  else if !calls.logOpens then { session := closed.session, ending := .crashed }
  else
    let reset := resetStdin calls.tcsetattrStdin closed.session
    { session := reset.session, ending := .returned }

/-- `datapath_task`; `begin` and the two originals have not been written when it starts. -/
def datapathTask (lib : TermiosLib T) (portname : String) (quiet : CInt) (beginTime : Int)
    (calls : Calls) (session : Session T) : Ended T :=
  let opened := initPortRaw lib portname 115200 calls.port session
  let fd := opened.value
  if fd.slt 0 then
    { session := opened.session, ending := .exited ("Failed to open " ++ portname ++ "\n") }
  else
    let ready := initStdin lib calls.stdin opened.session
    if ready.value ≠ 0 then
      { session := ready.session
        ending := .exited "datapath_task: Failed to init stdin.\n" }
    else if (flushPort fd calls.tcflush).1 ≠ 0 then
      { session := ready.session, ending := .exited "flush port failed.\n" }
    else
      match loopFrom quiet calls.logOpens fd (DatapathTask.start beginTime) calls.polls with
      | .returned => shutdown calls fd ready.session
      | ending => { session := ready.session, ending }

end Olimex2378.Host
