import Olimex2378.Host.DatapathHost
import Olimex2378.Host.ParseArgs

/-!
# The host program and its log file

`main` of `datapath-host.c`: the command line, the line of settings that it writes to the log
file, and `datapath_task`, which opens the same file for writing again. Opening it empties it.
Of what is printed only the lines of numbers are kept. A run keeps the text that has been handed
to `fprintf` for the log file since it was last opened, or nothing when it has not been opened,
and whether `fclose` or `exit` has flushed the file since. Until then the file itself, which
nobody else writes, holds a front of this text, as much as its buffer has let through; a write to
it that fails, which the program does not notice, is left out.
-/

namespace Olimex2378.Host

open Run

variable {T : Type} {argc : Nat}

/-- The characters of some bytes. -/
def byteChars (bytes : List UInt8) : List Char := bytes.map fun byte => Char.ofNat byte.toNat

/-- The string that a name holds. -/
def nameText (name : Vector UInt8 nameSize) : List Char :=
  byteChars (name.toList.takeWhile (· ≠ 0))

/-- `%lx`. -/
def hexText (value : Nat) : List Char := Nat.toDigits 16 value

/-- `%lu`. -/
def decimalText (value : Nat) : List Char := Nat.toDigits 10 value

/-- The line of a number on the screen, `"0x%lx\n"`. -/
def screenLine (value : Nat) : List Char := ['0', 'x'] ++ hexText value ++ ['\n']

/-- The line of a number in the log file, `"%lx %lu\n"`. -/
def logLine (value : Nat) : List Char := hexText value ++ [' '] ++ decimalText value ++ ['\n']

/-- The settings that `main` writes to the log file. -/
def settingsText (progname : List Char) (settings : Settings) : List Char :=
  "\nSettings: ".toList ++ progname ++
    (if settings.quiet ≠ 0 then " --quiet --logfile ".toList else " --logfile ".toList) ++
    nameText settings.logfile ++ " --portname ".toList ++ nameText settings.portname ++
    " \n\n".toList

/-- What an iteration does before it logs a number. -/
def beforeLog (out : List Effect) : List Effect :=
  out.takeWhile fun effect => match effect with
    | .logged _ => false
    | _ => true

/-- What the loop does from an iteration: it crashes when it logs a number without a log
file. -/
def loopOutput (quiet : CInt) (logOpens : Bool) (fd : CInt) (t : DatapathTask) :
    List SessionPoll → List Effect
  | [] => []
  | poll :: rest =>
    let (t, out) := t.step quiet (poll.poll fd)
    if !logOpens && !(logged out).isEmpty then beforeLog out
    else
      match t.status with
      | .looping => out ++ loopOutput quiet logOpens fd t rest
      | _ => out

/-- What the loop of `datapath_task` does, where it is entered. -/
def taskOutput (lib : TermiosLib T) (portname : String) (quiet : CInt) (beginTime : Int)
    (calls : Calls) (session : Session T) : List Effect :=
  let opened := initPortRaw lib portname 115200 calls.port session
  let fd := opened.value
  if fd.slt 0 then []
  else if (initStdin lib calls.stdin opened.session).value ≠ 0 then []
  else if (flushPort fd calls.tcflush).1 ≠ 0 then []
  else loopOutput quiet calls.logOpens fd (DatapathTask.start beginTime) calls.polls

/-- The calls of a run of the program. -/
structure ProgramCalls where
  /-- `fopen` of `main` opens the log file. -/
  logOpens : Bool
  /-- Those of `datapath_task`. -/
  task : Calls

/-- How a run of the program stands. -/
inductive ProgramEnding
  /-- `pf_command_line` has ended it. -/
  | exit (exit : Exit)
  /-- It is in `datapath_task`, or as that has left it. -/
  | task (ending : Ending)

/-- A run of the program and what it leaves. -/
structure ProgramRun (T : Type) where
  /-- How it stands. -/
  ending : ProgramEnding
  /-- The settings of the terminals. -/
  session : Session T
  /-- The lines of numbers handed to `printf`. -/
  screen : List Char
  /-- The text handed to `fprintf` for the log file since it was last opened. -/
  log : Option (List Char)
  /-- The log file has been flushed since. -/
  flushed : Bool

/-- The log file may hold a text: a front of what has been handed to `fprintf`, and all of it
once the file has been flushed. -/
def ProgramRun.Holds (run : ProgramRun T) (file : List Char) : Prop :=
  ∃ text, run.log = some text ∧ file <+: text ∧ (run.flushed = true → file = text)

/-- A task that has returned has closed its log file, and `exit` flushes every open file. -/
def Ending.flushes : Ending → Bool
  | .looping => false
  | .returned => true
  | .exited _ => true
  | .crashed => false

/-- `main`. -/
def main (lib : TermiosLib T) (argv : Vector CString argc) (beginTime : Int)
    (calls : ProgramCalls) (session : Session T) : ProgramRun T :=
  match pfCommandLine argv mainSettings with
  | .error exit => { ending := .exit exit, session, screen := [], log := none, flushed := false }
  | .ok settings =>
    -- A failed `fopen` is reported, and its null pointer is used all the same.
    if !calls.logOpens then
      { ending := .task .crashed, session, screen := [], log := none, flushed := false }
    else
      let progname := byteChars ((argv.toList.head?.map CString.bytes).getD [])
      let portname := String.ofList (nameText settings.portname)
      let ended := datapathTask lib portname settings.quiet beginTime calls.task session
      let out := taskOutput lib portname settings.quiet beginTime calls.task session
      { ending := .task ended.ending
        session := ended.session
        screen := (printed out).flatMap screenLine
        log := some (if calls.task.logOpens then (logged out).flatMap logLine
                     else settingsText progname settings)
        -- `main` has closed the file before the task opens it again.
        flushed := !calls.task.logOpens || ended.ending.flushes }

end Olimex2378.Host
