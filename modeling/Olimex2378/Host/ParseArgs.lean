import Olimex2378.Basis.Scan
import Olimex2378.Host.Helpers

/-!
# The command line of the host program

`pf_command_line` of `parse-args.c`, and the variables that `main` gives it. The loop runs
over the index of a word, which its body advances past a value. The function returns what it
leaves in the variables, or ends the program after `printHelp`, whose text is left out.
-/

namespace Olimex2378.Host

open Scan

/-- `NAME_SIZE`. -/
def nameSize : Nat := 50

/-- `"-h"`. -/
def optH : CString := ⟨chars "-h", by decide⟩

/-- `"--help"`. -/
def optHelp : CString := ⟨chars "--help", by decide⟩

/-- `"--quiet"`. -/
def optQuiet : CString := ⟨chars "--quiet", by decide⟩

/-- `"--logfile"`. -/
def optLogfile : CString := ⟨chars "--logfile", by decide⟩

/-- `"--portname"`. -/
def optPortname : CString := ⟨chars "--portname", by decide⟩

/-- The variables of `main` that the command line sets. -/
structure Settings where
  /-- `quiet`. -/
  quiet : CInt
  /-- `logfile`. -/
  logfile : Vector UInt8 nameSize
  /-- `portname`. -/
  portname : Vector UInt8 nameSize

/-- The status with which a program exits. -/
inductive ExitStatus
  /-- `EXIT_SUCCESS`. -/
  | success
  /-- `EXIT_FAILURE`. -/
  | failure
  deriving DecidableEq

/-- An exit from `pf_command_line`. -/
structure Exit where
  /-- What is printed on `stderr`. -/
  stderr : List UInt8
  /-- The argument of `printHelp`, unless it is the null pointer. -/
  progname : Option CString
  /-- The argument of `exit`. -/
  status : ExitStatus

/-- `name[NAME_SIZE-1] = '\0'`. -/
def terminate (name : Vector UInt8 nameSize) : Vector UInt8 nameSize :=
  name.set (nameSize - 1) 0 (by decide)

variable {argc : Nat}

/-- One pass through the loop: the index after it, not yet advanced by the loop, and the
variables, or the exit. The branch of `--portname` terminates `logfile`. -/
def parseArg (argv : Vector CString argc) (i : Nat) (inside : i < argc) (settings : Settings) :
    Except Exit (Nat × Settings) :=
  if strcmp argv[i] optH = 0 ∨ strcmp argv[i] optHelp = 0 then
    .error { stderr := [], progname := some argv[0], status := .success }
  else if strcmp argv[i] optQuiet = 0 then .ok (i, { settings with quiet := 1 })
  else if strcmp argv[i] optLogfile = 0 then
    if more : i < argc - 1 then
      let logfile := strncpy settings.logfile argv[i + 1] (nameSize - 1)
      .ok (i + 1, { settings with logfile := terminate logfile })
    else
      .error { stderr := error "No log file name."
               progname := some argv[0]
               status := .failure }
  else if strcmp argv[i] optPortname = 0 then
    if more : i < argc - 1 then
      let portname := strncpy settings.portname argv[i + 1] (nameSize - 1)
      .ok (i + 1, { settings with portname, logfile := terminate settings.logfile })
    else
      .error { stderr := error "No port name."
               progname := some argv[0]
               status := .failure }
  else if i ≠ 0 then
    .error { stderr := error "Unrecognized option:" ++
               (chars "\t" ++ argv[i].bytes ++ chars " <- unrecognized\n")
             progname := some argv[0]
             status := .failure }
  else .ok (i, settings)

/-- The body of the loop does not move the index back. -/
theorem parseArg_forward {argv : Vector CString argc} {i : Nat} {inside : i < argc}
    {settings : Settings} {passed : Nat × Settings}
    (parsed : parseArg argv i inside settings = .ok passed) : i ≤ passed.1 := by
  unfold parseArg at parsed
  -- One bullet for each branch of the source, in its order.
  split at parsed
  · cases parsed
  split at parsed
  · cases parsed
    exact Nat.le_refl i
  split at parsed
  · split at parsed
    · cases parsed
      exact Nat.le_succ i
    · cases parsed
  split at parsed
  · split at parsed
    · cases parsed
      exact Nat.le_succ i
    · cases parsed
  split at parsed
  · cases parsed
  · cases parsed
    exact Nat.le_refl i

/-- The loop from an index. -/
def parseFrom (argv : Vector CString argc) (i : Nat) (settings : Settings) :
    Except Exit Settings :=
  if inside : i < argc then
    match parsed : parseArg argv i inside settings with
    | .error exit => .error exit
    | .ok passed => parseFrom argv (passed.1 + 1) passed.2
  else .ok settings
termination_by argc - i
decreasing_by
  have forward := parseArg_forward parsed
  omega

/-- The loop is a scan of the words. -/
theorem parseFrom_scans (argv : Vector CString argc) :
    Scans (parseArg argv) (parseFrom argv) := by
  refine scans_of_eq ?_ fun _ parsed => parseArg_forward parsed
  intro i settings
  rw [parseFrom]
  split
  · split
    · next exit refused => rw [refused]
    · next passed parsed => rw [parsed]
  · rfl

/-- `pf_command_line`. -/
def pfCommandLine (argv : Vector CString argc) (settings : Settings) : Except Exit Settings :=
  if argc = 0 then .error { stderr := [], progname := none, status := .success }
  else parseFrom argv 0 settings

/-- The variables as `main` initialises them. -/
def mainSettings : Settings where
  quiet := 0
  logfile := CString.array ⟨chars "./datapath-host.log", by decide⟩
  portname := CString.array ⟨chars "/dev/ttyACM0", by decide⟩

end Olimex2378.Host
