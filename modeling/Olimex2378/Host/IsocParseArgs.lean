import Olimex2378.Host.ParseArgs

/-!
# The command line of the isochronous host program

The `pf_command_line` of `dp-isoc` has no `--quiet`. Everything else is as in `ParseArgs`, the
terminator of `--portname` included.
-/

namespace Olimex2378.Host.IsocParseArgs

open Scan

/-- The variables of `main` that the command line sets. -/
structure Settings where
  /-- `logfile`. -/
  logfile : Vector UInt8 nameSize
  /-- `portname`. -/
  portname : Vector UInt8 nameSize

variable {argc : Nat}

/-- One pass through the loop: the index after it, not yet advanced by the loop, and the
variables, or the exit. The branch of `--portname` terminates `logfile`. The test `i< argc-1` is
written as the bound that it gives. -/
def parseArg (argv : Vector CString argc) (i : Nat) (inside : i < argc) (settings : Settings) :
    Except Exit (Nat × Settings) :=
  if strcmp argv[i] optH = 0 ∨ strcmp argv[i] optHelp = 0 then
    .error { stderr := [], progname := argv[0]?, status := .success }
  else if strcmp argv[i] optLogfile = 0 then
    if more : i + 1 < argc then
      let logfile := strncpy settings.logfile argv[i + 1] (nameSize - 1)
      .ok (i + 1, { settings with logfile := terminate logfile })
    else
      .error { stderr := error "No log file name."
               progname := argv[0]?
               status := .failure }
  else if strcmp argv[i] optPortname = 0 then
    if more : i + 1 < argc then
      let portname := strncpy settings.portname argv[i + 1] (nameSize - 1)
      .ok (i + 1, { settings with portname, logfile := terminate settings.logfile })
    else
      .error { stderr := error "No port name."
               progname := argv[0]?
               status := .failure }
  else if i ≠ 0 then
    .error { stderr := error "Unrecognized option:" ++
               (chars "\t" ++ argv[i].bytes ++ chars " <- unrecognized\n")
             progname := argv[0]?
             status := .failure }
  else .ok (i, settings)

/-- The variables of the other copy, with some `quiet`. -/
def Settings.quietly (settings : Settings) (quiet : CInt) : Host.Settings :=
  { quiet, logfile := settings.logfile, portname := settings.portname }

/-- What the other copy leaves of these variables. -/
def ofHost (settings : Host.Settings) : Settings :=
  { logfile := settings.logfile, portname := settings.portname }

section Copies

variable {argv : Vector CString argc} {i : Nat} {inside : i < argc}

/-- At every word but `--quiet` the two copies do the same. -/
theorem parseArg_same (other : argv[i] ≠ optQuiet) (quiet : CInt) (settings : Settings) :
    parseArg argv i inside settings =
      (Host.parseArg argv i inside (settings.quietly quiet)).map fun passed =>
        (passed.1, ofHost passed.2) := by
  have notQuiet : ¬ strcmp argv[i] optQuiet = 0 := fun same => other ((strcmp_eq_zero _ _).1 same)
  have bound : i < argc - 1 ↔ i + 1 < argc := by omega
  have first : argv[0]? = some argv[0] := Vector.getElem?_eq_getElem (by omega)
  rw [parseArg, Host.parseArg, if_neg notQuiet, first]
  -- The branches are the same; in each one the results are.
  by_cases help : strcmp argv[i] optH = 0 ∨ strcmp argv[i] optHelp = 0
  · rw [if_pos help, if_pos help]
    rfl
  rw [if_neg help, if_neg help]
  by_cases logfile : strcmp argv[i] optLogfile = 0
  · rw [if_pos logfile, if_pos logfile]
    by_cases more : i + 1 < argc
    · rw [dif_pos more, dif_pos (bound.2 more)]
      rfl
    · rw [dif_neg more, dif_neg (fun less => more (bound.1 less))]
      rfl
  rw [if_neg logfile, if_neg logfile]
  by_cases portname : strcmp argv[i] optPortname = 0
  · rw [if_pos portname, if_pos portname]
    by_cases more : i + 1 < argc
    · rw [dif_pos more, dif_pos (bound.2 more)]
      rfl
    · rw [dif_neg more, dif_neg (fun less => more (bound.1 less))]
      rfl
  rw [if_neg portname, if_neg portname]
  split
  · rfl
  · rfl

/-- At `--quiet` this copy ends the program, unless it is the first word, which it passes
over. -/
theorem parseArg_quiet (inside : i < argc) (isQuiet : argv[i] = optQuiet)
    (settings : Settings) :
    (i = 0 ∧ parseArg argv i inside settings = .ok (i, settings)) ∨
      (i ≠ 0 ∧ ∃ exit, parseArg argv i inside settings = .error exit) := by
  simp only [parseArg, strcmp_eq_zero, isQuiet]
  rw [if_neg (by decide), if_neg (by decide), if_neg (by decide)]
  by_cases first : i = 0
  · rw [if_neg (fun behind => behind first)]
    exact Or.inl ⟨first, rfl⟩
  · rw [if_pos first]
    exact Or.inr ⟨first, _, rfl⟩

/-- The body of the loop does not move the index back. -/
theorem parseArg_forward {settings : Settings} {passed : Nat × Settings}
    (parsed : parseArg argv i inside settings = .ok passed) : i ≤ passed.1 := by
  by_cases isQuiet : argv[i] = optQuiet
  · rcases parseArg_quiet inside isQuiet settings with ⟨-, same⟩ | ⟨-, exit, refused⟩
    · cases parsed.symm.trans same
      exact Nat.le_refl i
    · cases parsed.symm.trans refused
  · rw [parseArg_same isQuiet 0] at parsed
    cases other : Host.parseArg argv i inside (settings.quietly 0) with
    | error exit =>
      rw [other] at parsed
      cases parsed
    | ok found =>
      rw [other] at parsed
      cases parsed
      exact Host.parseArg_forward other

end Copies

/-- The loop from an index. -/
def parseFrom (argv : Vector CString argc) (i : Nat) (settings : Settings) :
    Except Exit Settings :=
  if inside : i < argc then
    match parsed : parseArg argv i inside settings with
    | .error exit => .error exit
    | .ok passed => parseFrom argv (passed.1 + 1) passed.2
  else .ok settings
termination_by argc - i
decreasing_by
  have forward := parseArg_forward parsed
  omega

/-- The loop is a scan of the words. -/
theorem parseFrom_scans (argv : Vector CString argc) :
    Scans (parseArg argv) (parseFrom argv) := by
  refine scans_of_eq ?_ fun _ parsed => parseArg_forward parsed
  intro i settings
  rw [parseFrom]
  split
  · split
    · next exit refused => rw [refused]
    · next passed parsed => rw [parsed]
  · rfl

/-- `pf_command_line`. -/
def pfCommandLine (argv : Vector CString argc) (settings : Settings) : Except Exit Settings :=
  if argc = 0 then .error { stderr := [], progname := none, status := .success }
  else parseFrom argv 0 settings

end Olimex2378.Host.IsocParseArgs
