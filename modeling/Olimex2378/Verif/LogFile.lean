import Olimex2378.Basis.Numerals
import Olimex2378.Host.HostProgram
import Olimex2378.Verif.HostWords

/-!
# Reading the log file back

A log file is read line by line, and a line is two numerals of one number, the first in base 16
and the second in base 10. Exactly the texts that the task can log are read, each as the numbers
it was made for, which are those that the screen shows. While the program runs, the file holds a
front of such a text, and the whole lines of it are read as the first of the numbers. The settings
that `main` writes are not read: their first line is empty. They are in the file only when the
task could not open it again, and then the program does not return.
-/

namespace Olimex2378.Verif.LogFile

open Host Numerals Run

/-- The number of a line. -/
def readLine (line : List Char) : Option Nat :=
  match records ' ' (line ++ [' ']) with
  | some [first, second] =>
    match readNumeral 16 first, readNumeral 10 second with
    | some left, some right => if left = right then some left else none
    | _, _ => none
  | _ => none

/-- The numbers of a log file. -/
def readLog (text : List Char) : Option (List Nat) := (records '\n' text).bind (List.mapM readLine)

/-- A line without its end. -/
def entry (value : Nat) : List Char := hexText value ++ [' '] ++ decimalText value

/-- Neither a space nor the end of a line is in a numeral. -/
theorem numeral_unmarked (value : Nat) :
    (' ' ∉ hexText value ∧ ' ' ∉ decimalText value) ∧
      '\n' ∉ hexText value ∧ '\n' ∉ decimalText value := by
  refine ⟨⟨?_, ?_⟩, ?_, ?_⟩
  all_goals exact not_mem_toDigits (by omega) (by omega) (by decide) value

/-- The end of a line is in no entry. -/
theorem entry_unmarked (value : Nat) : '\n' ∉ entry value := by
  obtain ⟨-, hex, decimal⟩ := numeral_unmarked value
  rw [entry, List.mem_append, List.mem_append, List.mem_singleton, not_or, not_or]
  exact ⟨⟨hex, by decide⟩, decimal⟩

/-- A line is read back. -/
theorem readLine_entry (value : Nat) : readLine (entry value) = some value := by
  obtain ⟨⟨hex, decimal⟩, -⟩ := numeral_unmarked value
  have split : records ' ' (entry value ++ [' ']) = some [hexText value, decimalText value] := by
    rw [entry, List.append_assoc, List.append_assoc, List.singleton_append,
      records_append ' ' hex, records_append ' ' decimal]
    rfl
  have left : readNumeral 16 (hexText value) = some value :=
    readNumeral_toDigits (by omega) (by omega) value
  have right : readNumeral 10 (decimalText value) = some value :=
    readNumeral_toDigits (by omega) (by omega) value
  simp only [readLine, split, left, right, if_true]

/-- The lines of some numbers are read back. -/
theorem readLog_lines (numbers : List Nat) :
    readLog (numbers.flatMap logLine) = some numbers := by
  have lines : numbers.flatMap logLine = numbers.flatMap fun value => entry value ++ ['\n'] := rfl
  rw [readLog, lines, records_flatMap '\n' entry_unmarked, Option.bind_some, List.mapM_map]
  induction numbers with
  | nil => rfl
  | cons value rest ih =>
    rw [List.mapM_cons, Function.comp_apply, readLine_entry, ih rfl]
    rfl

/-- A line that is read is the entry of its number. -/
theorem entry_readLine {line : List Char} {value : Nat} (read : readLine line = some value) :
    line = entry value := by
  unfold readLine at read
  cases found : records ' ' (line ++ [' ']) with
  | none => simp only [found] at read; contradiction
  | some fields =>
    rw [found] at read
    have text := flatMap_records ' ' found
    -- A line has two fields.
    rcases fields with _ | ⟨first, _ | ⟨second, _ | ⟨third, others⟩⟩⟩
    · contradiction
    · contradiction
    · cases hex : readNumeral 16 first with
      | none => simp only [hex] at read; contradiction
      | some left =>
        cases decimal : readNumeral 10 second with
        | none => simp only [hex, decimal] at read; contradiction
        | some right =>
          simp only [hex, decimal] at read
          by_cases same : left = right
          · rw [if_pos same] at read
            have number : left = value := Option.some.inj read
            have joined : line ++ [' '] = (first ++ [' '] ++ second) ++ [' '] := by
              rw [text]
              simp
            rw [List.append_cancel_right joined, entry, hexText, decimalText,
              toDigits_readNumeral (by omega) hex, toDigits_readNumeral (by omega) decimal,
              ← same, number]
          · rw [if_neg same] at read
            contradiction
    · contradiction

/-- Lines that are read are the entries of their numbers. -/
theorem entries_mapM {lines : List (List Char)} {numbers : List Nat}
    (read : lines.mapM readLine = some numbers) : lines = numbers.map entry := by
  induction lines generalizing numbers with
  | nil =>
    have none : [] = numbers := Option.some.inj read
    rw [← none]
    rfl
  | cons line rest ih =>
    rw [List.mapM_cons] at read
    obtain ⟨value, first, more⟩ := Option.bind_eq_some_iff.1 read
    obtain ⟨others, later, joined⟩ := Option.bind_eq_some_iff.1 more
    rw [← Option.some.inj joined, List.map_cons, entry_readLine first, ih later]

/-- Exactly the lines of some numbers are read, as these numbers. -/
theorem readLog_iff {text : List Char} {numbers : List Nat} :
    readLog text = some numbers ↔ text = numbers.flatMap logLine := by
  refine ⟨?_, fun lines => lines ▸ readLog_lines numbers⟩
  intro read
  obtain ⟨lines, found, entries⟩ := Option.bind_eq_some_iff.1 read
  rw [flatMap_records '\n' found, entries_mapM entries, List.flatMap_map]
  rfl

/-- A text that begins with the end of a line is not read. -/
theorem readLog_empty_line (rest : List Char) : readLog ('\n' :: rest) = none := by
  rw [readLog, records, if_pos rfl]
  cases records '\n' rest with
  | none => rfl
  | some lines =>
    show List.mapM readLine ([] :: lines) = none
    rw [List.mapM_cons]
    rfl

/-- An iteration logs what it prints. -/
theorem step_logged (quiet : CInt) (t : DatapathTask) (poll : Poll) :
    logged (t.step quiet poll).2 = printed (t.step quiet poll).2 := by
  have stepped := t.stepped quiet poll
  have silent := (HostWords.terminal_frame t poll).2.2
  generalize t.step quiet poll = result at stepped ⊢
  cases stepped with
  | stopped left => rfl
  | cut looping next out terminal =>
    rw [terminal] at silent
    rw [silent.1, silent.2]
  | quits looping next out terminal quit =>
    rw [terminal] at silent
    rw [silent.1, silent.2]
  | polls looping next out terminal stays =>
    rw [terminal] at silent
    rw [logged_append, printed_append, silent.1, silent.2]
    cases poll.serial with
    | failed => rfl
    | empty => rfl
    | data bytes positive fits =>
      simp only [DatapathTask.serial]
      split <;> rfl

/-- The loop logs what it prints, when the log file is open. -/
theorem loopOutput_logged (quiet : CInt) (fd : CInt) (t : DatapathTask)
    (polls : List SessionPoll) :
    logged (loopOutput quiet true fd t polls) = printed (loopOutput quiet true fd t polls) := by
  induction polls generalizing t with
  | nil => rfl
  | cons poll rest ih =>
    have here := step_logged quiet t (poll.poll fd)
    have later := ih (t.step quiet (poll.poll fd)).1
    simp only [loopOutput, Bool.not_true, Bool.false_and, Bool.false_eq_true, if_false]
    split
    · rw [logged_append, printed_append, here, later]
    · exact here

section Task

variable {T : Type} (lib : TermiosLib T) (portname : String) (quiet : CInt) (beginTime : Int)
  (calls : Calls) (session : Session T)

/-- The task logs what it prints, when the log file is open. -/
theorem taskOutput_logged (opens : calls.logOpens = true) :
    logged (taskOutput lib portname quiet beginTime calls session) =
      printed (taskOutput lib portname quiet beginTime calls session) := by
  simp only [taskOutput, opens]
  -- One bullet for each way in which the loop is not entered, and one for the loop.
  split
  · rfl
  split
  · rfl
  split
  · rfl
  · exact loopOutput_logged _ _ _ _

/-- A shutdown that returns has closed a log file. -/
theorem logOpens_of_shutdown {fd : CInt} (returned : (shutdown calls fd session).ending = .returned) :
    calls.logOpens = true := by
  cases opens : calls.logOpens with
  | true => rfl
  | false =>
    simp only [shutdown, opens, Bool.not_false, if_true] at returned
    split at returned <;> contradiction

/-- A task that returns has opened the log file. -/
theorem logOpens_of_returned
    (returned : (datapathTask lib portname quiet beginTime calls session).ending = .returned) :
    calls.logOpens = true := by
  unfold datapathTask at returned
  simp only at returned
  split at returned
  · contradiction
  split at returned
  · contradiction
  split at returned
  · contradiction
  split at returned
  · exact logOpens_of_shutdown calls _ returned
  · next other => exact absurd returned other

end Task

section Program

variable {T : Type} {argc : Nat} (lib : TermiosLib T) (argv : Vector CString argc)
  (beginTime : Int) (calls : ProgramCalls) (session : Session T)

/-- The settings begin with the end of a line. -/
theorem settingsText_head (progname : List Char) (settings : Settings) :
    ∃ rest, settingsText progname settings = '\n' :: rest := by
  have first : "\nSettings: ".toList = '\n' :: "Settings: ".toList := by simp
  unfold settingsText
  generalize "\nSettings: ".toList = start at first
  subst first
  simp only [List.cons_append]
  exact ⟨_, rfl⟩

/-- What a run leaves: no log file, one for which it has written the settings, or one for which
it has written the lines of the numbers shown. -/
inductive Leaves : Prop
  /-- The log file has not been opened, and the program has not returned. -/
  | unopened (none : (main lib argv beginTime calls session).log = none)
      (ending : ∀ left, (main lib argv beginTime calls session).ending = .task left →
        left = .crashed)
  /-- It has been opened once and closed, and the program has not returned. -/
  | once (shut : calls.task.logOpens = false) (rest : List Char)
      (log : (main lib argv beginTime calls session).log = some ('\n' :: rest))
      (flushed : (main lib argv beginTime calls session).flushed = true)
      (ending : (main lib argv beginTime calls session).ending ≠ .task .returned)
  /-- It has been opened twice. -/
  | twice (opens : calls.task.logOpens = true) (numbers : List Nat)
      (log : (main lib argv beginTime calls session).log = some (numbers.flatMap logLine))
      (screen : (main lib argv beginTime calls session).screen = numbers.flatMap screenLine)
      (flushed : ∀ left, (main lib argv beginTime calls session).ending = .task left →
        (main lib argv beginTime calls session).flushed = left.flushes)

/-- Every run leaves one of these. -/
theorem main_leaves : Leaves lib argv beginTime calls session := by
  cases parsed : pfCommandLine argv mainSettings with
  | error exit =>
    apply Leaves.unopened
    · simp only [main, parsed]
    · simp only [main, parsed]
      exact fun _ same => ProgramEnding.noConfusion same
  | ok settings =>
    cases first : calls.logOpens with
    | false =>
      apply Leaves.unopened
      · simp only [main, parsed, first, Bool.not_false, if_true]
      · simp only [main, parsed, first, Bool.not_false, if_true]
        exact fun _ same => (ProgramEnding.task.inj same).symm
    | true =>
      cases opens : calls.task.logOpens with
      | false =>
        obtain ⟨rest, head⟩ := settingsText_head
          (byteChars ((argv.toList.head?.map CString.bytes).getD [])) settings
        apply Leaves.once opens rest
        · simp only [main, parsed, first, opens, Bool.not_true, Bool.false_eq_true, if_false, head]
        · simp only [main, parsed, first, opens, Bool.not_true, Bool.false_eq_true, if_false,
            Bool.not_false, Bool.true_or]
        · simp only [main, parsed, first, Bool.not_true, Bool.false_eq_true, if_false]
          intro returned
          have reopened := logOpens_of_returned _ _ _ _ _ _ (ProgramEnding.task.inj returned)
          exact absurd (opens.symm.trans reopened) Bool.false_ne_true
      | true =>
        apply Leaves.twice opens (printed (taskOutput lib
          (String.ofList (nameText settings.portname)) settings.quiet beginTime calls.task session))
        · rw [← taskOutput_logged _ _ _ _ _ _ opens]
          simp only [main, parsed, first, opens, Bool.not_true, Bool.false_eq_true, if_false,
            if_true]
        · simp only [main, parsed, first, Bool.not_true, Bool.false_eq_true, if_false]
        · simp only [main, parsed, first, opens, Bool.not_true, Bool.false_eq_true, if_false,
            Bool.false_or]
          rintro left same
          rw [ProgramEnding.task.inj same]

/-- The log file reads back. The reader reads exactly the lines of some numbers, as these
numbers. In every run of the program, whatever its command line and its calls, as long as the
writes to the log file succeed: when `datapath_task` could not open it again it holds the
settings, which are not read; when it could, the whole lines that the file holds are read as the
first of the numbers that the screen shows, in order, and once it has been flushed it is read as
all of them. A program that has returned has opened the file again and flushed it, and one that
has left an opened file by `exit` has flushed it. -/
theorem log_reads_back :
    let run := main lib argv beginTime calls session
    (∀ text numbers, readLog text = some numbers ↔ text = numbers.flatMap logLine) ∧
      (∀ file, run.Holds file →
        (calls.task.logOpens = false → readLog file = none) ∧
        (calls.task.logOpens = true →
          ∃ numbers first, run.screen = numbers.flatMap screenLine ∧ first <+: numbers ∧
            readLog (wholeRecords '\n' file) = some first ∧
            (run.flushed = true → readLog file = some numbers))) ∧
      (run.ending = .task .returned →
        calls.task.logOpens = true ∧ run.log.isSome = true ∧ run.flushed = true) ∧
      (∀ message, run.ending = .task (.exited message) →
        run.log.isSome = true ∧ run.flushed = true) := by
  intro run
  refine ⟨fun text numbers => readLog_iff, ?_⟩
  cases main_leaves lib argv beginTime calls session with
  | unopened none ending =>
    refine ⟨?_, fun returned => ?_, fun message exited => ?_⟩
    · rintro file ⟨text, opened, -⟩
      exact absurd (none.symm.trans opened) (by simp)
    · exact absurd (ending _ returned) (by simp)
    · exact absurd (ending _ exited) (by simp)
  | once shut rest log flushed ending =>
    have opened : run.log.isSome = true := by simp [run, log]
    refine ⟨?_, fun returned => absurd returned ending, fun _ _ => ⟨opened, flushed⟩⟩
    rintro file ⟨text, holds, -, whole⟩
    have same : '\n' :: rest = text := Option.some.inj (log.symm.trans holds)
    refine ⟨fun _ => ?_, fun opens => absurd (shut.symm.trans opens) Bool.false_ne_true⟩
    rw [whole flushed, ← same]
    exact readLog_empty_line rest
  | twice opens numbers log screen flushed =>
    have opened : run.log.isSome = true := by simp [run, log]
    refine ⟨?_, fun returned => ⟨opens, opened, flushed _ returned⟩,
      fun message exited => ⟨opened, flushed _ exited⟩⟩
    rintro file ⟨text, holds, front, whole⟩
    have same : numbers.flatMap logLine = text := Option.some.inj (log.symm.trans holds)
    rw [← same] at front whole
    refine ⟨fun shut => absurd (shut.symm.trans opens) Bool.false_ne_true, fun _ => ?_⟩
    obtain ⟨first, isFirst, lines⟩ := wholeRecords_of_prefix '\n' entry_unmarked front
    refine ⟨numbers, first, screen, isFirst, ?_, fun flushes => ?_⟩
    · rw [lines]
      exact readLog_lines first
    · rw [whole flushes]
      exact readLog_lines numbers

end Program

end Olimex2378.Verif.LogFile
