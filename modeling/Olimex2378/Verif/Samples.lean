import Olimex2378.Host.IsocTask
import Olimex2378.Verif.HostWords

/-!
# Stale bytes in a sample

A read overwrites the front of `value_serial` and the whole variable is printed and logged, so
a read that is shorter than an earlier one is printed with what the earlier one left behind
it. Both copies of `datapath_task` print the numbers that their reads encode in exactly the
runs in which every read meets only zeros behind its end.
-/

namespace Olimex2378.Verif.Samples

open Host Run Bytes

/-- The bytes that a read returned, if it returned some. -/
def readData {size : Nat} : SerialRead size → List (List UInt8)
  | .failed => []
  | .empty => []
  | .data bytes _ _ => [bytes]

/-- A read returns no more than it was asked for. -/
theorem readData_fits {size : Nat} (read : SerialRead size) :
    ∀ piece ∈ readData read, piece.length ≤ size := by
  cases read with
  | failed => simp [readData]
  | empty => simp [readData]
  | data bytes positive fits => simpa [readData] using fits

/-- Every number printed and logged is the one that the bytes of its read encode. -/
def Fresh (out : List Effect) : Prop :=
  printed out = (reads out).map leValue ∧ logged out = (reads out).map leValue

/-- What shows the readings of a memory is fresh exactly when each read meets only zeros. -/
theorem fresh_iff_of_readings {size : Nat} {memory : Vector UInt8 size} {out : List Effect}
    (prints : printed out = readings memory (reads out))
    (logs : logged out = readings memory (reads out))
    (fits : ∀ piece ∈ reads out, piece.length ≤ size) :
    Fresh out ↔ Clear memory (reads out) := by
  rw [Fresh, prints, logs, and_self]
  exact readings_eq_iff memory fits

/-- What is printed are the readings of the memory. -/
theorem shown_readings (memory : Vector UInt8 8) (pieces : List (List UInt8)) :
    HostWords.shown memory pieces = readings memory pieces := by
  induction pieces generalizing memory with
  | nil => rfl
  | cons piece rest ih => rw [HostWords.shown, readings, ih]

/-- The serial port's part of an iteration makes one read. -/
theorem serial_reads (quiet : CInt) (t : DatapathTask) (read : SerialRead 8) :
    reads (t.serial quiet read).2 = readData read := by
  cases read with
  | failed => rfl
  | empty => rfl
  | data bytes positive fits =>
    simp only [DatapathTask.serial]
    split <;> rfl

/-- A step makes its read of the serial port or none. -/
theorem step_reads (quiet : CInt) (t : DatapathTask) (poll : Poll) :
    reads (t.step quiet poll).2 = [] ∨ reads (t.step quiet poll).2 = readData poll.serial := by
  have stepped := t.stepped quiet poll
  generalize t.step quiet poll = result at stepped ⊢
  have silent := (HostWords.terminal_frame t poll).2.1
  cases stepped with
  | stopped left => exact Or.inl rfl
  | cut looping next out terminal =>
    rw [terminal] at silent
    exact Or.inl silent
  | quits looping next out terminal quit =>
    rw [terminal] at silent
    exact Or.inl silent
  | polls looping next out terminal stays =>
    rw [terminal] at silent
    have before : reads out = [] := silent
    apply Or.inr
    rw [reads_append, before, serial_reads]
    rfl

/-- A run reads at most eight bytes at once. -/
theorem run_fits (quiet : CInt) (t : DatapathTask) (polls : List Poll) :
    ∀ piece ∈ reads (effects (trace (DatapathTask.step quiet) t polls)), piece.length ≤ 8 := by
  induction polls generalizing t with
  | nil => simp [reads]
  | cons poll rest ih =>
    intro piece member
    rw [trace_cons, effects_cons, reads_append] at member
    cases List.mem_append.1 member with
    | inl now =>
      cases step_reads quiet t poll with
      | inl none =>
        rw [none] at now
        contradiction
      | inr some =>
        rw [some] at now
        exact readData_fits poll.serial piece now
    | inr later => exact ih _ piece later

/-- In quiet mode a step prints and logs nothing. -/
theorem step_quiet {quiet : CInt} (silent : quiet ≠ 0) (t : DatapathTask) (poll : Poll) :
    printed (t.step quiet poll).2 = [] ∧ logged (t.step quiet poll).2 = [] := by
  have terminal := (HostWords.terminal_frame t poll).2.2
  have serial : ∀ (next : DatapathTask) (read : SerialRead 8),
      printed (next.serial quiet read).2 = [] ∧ logged (next.serial quiet read).2 = [] := by
    intro next read
    cases read with
    | failed => exact ⟨rfl, rfl⟩
    | empty => exact ⟨rfl, rfl⟩
    | data bytes positive fits =>
      simp only [DatapathTask.serial, if_neg silent]
      exact ⟨rfl, rfl⟩
  have stepped := t.stepped quiet poll
  generalize t.step quiet poll = result at stepped ⊢
  cases stepped with
  | stopped left => exact ⟨rfl, rfl⟩
  | cut looping next out result =>
    rw [result] at terminal
    exact terminal
  | quits looping next out result quit =>
    rw [result] at terminal
    exact terminal
  | polls looping next out result stays =>
    rw [result] at terminal
    have later := serial next poll.serial
    constructor
    · rw [printed_append, later.1, List.append_nil]
      exact terminal.1
    · rw [logged_append, later.2, List.append_nil]
      exact terminal.2

/-- In quiet mode a run prints and logs nothing. -/
theorem run_quiet {quiet : CInt} (silent : quiet ≠ 0) (t : DatapathTask) (polls : List Poll) :
    printed (effects (trace (DatapathTask.step quiet) t polls)) = [] ∧
      logged (effects (trace (DatapathTask.step quiet) t polls)) = [] := by
  induction polls generalizing t with
  | nil => exact ⟨rfl, rfl⟩
  | cons poll rest ih =>
    have now := step_quiet silent t poll
    have later := ih (t.step quiet poll).1
    rw [trace_cons, effects_cons, printed_append, logged_append, now.1, now.2, later.1, later.2]
    exact ⟨rfl, rfl⟩

/-- The terminal's part of an iteration leaves the serial port and its memory alone. -/
theorem isoc_terminal_frame (t : IsocTask) (poll : IsocPoll) :
    (t.terminal poll).1.valueSerial = t.valueSerial ∧ reads (t.terminal poll).2.1 = [] ∧
      printed (t.terminal poll).2.1 = [] ∧ logged (t.terminal poll).2.1 = [] := by
  unfold IsocTask.terminal
  cases poll.stdin with
  | failed => exact ⟨rfl, rfl, rfl, rfl⟩
  | empty => exact ⟨rfl, rfl, rfl, rfl⟩
  | key typed =>
    dsimp only
    split_ifs <;> exact ⟨rfl, rfl, rfl, rfl⟩

/-- The serial port's part of an iteration makes one read, keeps it in memory, and prints and
logs the memory. -/
theorem isoc_serial_shows (t : IsocTask) (read : SerialRead 4) :
    reads (t.serial read).2 = readData read ∧
      (t.serial read).1.valueSerial = (readData read).foldl overwrite t.valueSerial ∧
      printed (t.serial read).2 = readings t.valueSerial (readData read) ∧
      logged (t.serial read).2 = readings t.valueSerial (readData read) := by
  cases read with
  | failed => exact ⟨rfl, rfl, rfl, rfl⟩
  | empty => exact ⟨rfl, rfl, rfl, rfl⟩
  | data bytes positive fits => exact ⟨rfl, rfl, rfl, rfl⟩

/-- What an iteration shows of the memory, and that no read is longer than it. -/
structure Shows (before after : Vector UInt8 4) (out : List Effect) : Prop where
  /-- The memory holds what the reads left. -/
  memory : after = (reads out).foldl overwrite before
  /-- What is printed are the readings of the memory. -/
  prints : printed out = readings before (reads out)
  /-- What is logged is what is printed. -/
  logs : logged out = readings before (reads out)
  /-- No read is longer than the memory. -/
  fits : ∀ piece ∈ reads out, piece.length ≤ 4

/-- Effects that read, print and log nothing show nothing. -/
theorem shows_silent {memory : Vector UInt8 4} {out : List Effect} (noRead : reads out = [])
    (noPrint : printed out = []) (noLog : logged out = []) : Shows memory memory out := by
  constructor
  · rw [noRead]
    rfl
  · rw [noRead, noPrint]
    rfl
  · rw [noRead, noLog]
    rfl
  · simp [noRead]

/-- What two parts show one after the other. -/
theorem Shows.append {before middle after : Vector UInt8 4} {first second : List Effect}
    (earlier : Shows before middle first) (later : Shows middle after second) :
    Shows before after (first ++ second) := by
  have start := earlier.memory
  constructor
  · rw [reads_append, List.foldl_append, ← start]
    exact later.memory
  · rw [printed_append, reads_append, readings_append, ← start, earlier.prints, later.prints]
  · rw [logged_append, reads_append, readings_append, ← start, earlier.logs, later.logs]
  · intro piece member
    rw [reads_append] at member
    cases List.mem_append.1 member with
    | inl now => exact earlier.fits piece now
    | inr next => exact later.fits piece next

/-- A step shows the memory after its reads. -/
theorem isoc_step_shows (t : IsocTask) (poll : IsocPoll) :
    Shows t.valueSerial (t.step poll).1.valueSerial (t.step poll).2 := by
  have terminal := isoc_terminal_frame t poll
  have quietPart : Shows t.valueSerial (t.terminal poll).1.valueSerial (t.terminal poll).2.1 := by
    rw [terminal.1]
    exact shows_silent terminal.2.1 terminal.2.2.1 terminal.2.2.2
  unfold IsocTask.step IsocTask.iterate
  split
  · split
    next next out result =>
      rw [result] at quietPart
      exact quietPart
    next next out result =>
      rw [result] at quietPart
      split
      · exact quietPart
      · have serial := isoc_serial_shows next poll.serial
        apply quietPart.append
        constructor
        · rw [serial.1, serial.2.1]
        · rw [serial.1, serial.2.2.1]
        · rw [serial.1, serial.2.2.2]
        · rw [serial.1]
          exact readData_fits poll.serial
  · exact shows_silent rfl rfl rfl

/-- A run shows the memory after each of its reads. -/
theorem isoc_run_shows (t : IsocTask) (polls : List IsocPoll) :
    Shows t.valueSerial (exec IsocTask.step t polls).valueSerial
      (effects (trace IsocTask.step t polls)) := by
  induction polls generalizing t with
  | nil => exact shows_silent rfl rfl rfl
  | cons poll rest ih =>
    rw [trace_cons, effects_cons, exec_cons]
    exact (isoc_step_shows t poll).append (ih (t.step poll).1)

/-- A logged sample contains only bytes received for it in exactly these runs. In the loop of
`datapath-test`, which prints and logs nothing in quiet mode, and in that of `dp-isoc`, the
numbers printed and logged are those that the bytes of their reads encode if and only if every
read finds zeros in the bytes of `value_serial` behind its end. -/
theorem fresh_iff_clear (quiet : CInt) (beginTime : Int) (polls : List Poll)
    (isocPolls : List IsocPoll) :
    let out := effects (trace (DatapathTask.step quiet) (DatapathTask.start beginTime) polls)
    let isocOut := effects (trace IsocTask.step IsocTask.start isocPolls)
    (quiet = 0 → (Fresh out ↔ Clear (Vector.replicate 8 0) (reads out))) ∧
      (quiet ≠ 0 → printed out = [] ∧ logged out = []) ∧
      (Fresh isocOut ↔ Clear (Vector.replicate 4 0) (reads isocOut)) := by
  constructor
  · intro loud
    have shows := HostWords.run_shows loud (DatapathTask.start beginTime) polls
    rw [shown_readings] at shows
    exact fresh_iff_of_readings shows.1 shows.2 (run_fits quiet _ polls)
  · constructor
    · intro silent
      exact run_quiet silent (DatapathTask.start beginTime) polls
    · have shows := isoc_run_shows IsocTask.start isocPolls
      exact fresh_iff_of_readings shows.prints shows.logs shows.fits

/-- A read of two bytes and then one of a single byte, with no key typed. -/
def shortPolls : List Poll :=
  [{ stdin := .empty, flush := 0, now := 0, serial := .data [1, 2] (by decide) (by decide) },
   { stdin := .empty, flush := 0, now := 0, serial := .data [3] (by decide) (by decide) }]

/-- The same reads in the other copy. -/
def shortIsocPolls : List IsocPoll :=
  [{ stdin := .empty, flush := 0, serial := .data [1, 2] (by decide) (by decide) },
   { stdin := .empty, flush := 0, serial := .data [3] (by decide) (by decide) }]

/-- The single byte 3 is printed and logged as 0x203, in both copies. -/
theorem shortPolls_stale :
    printed (effects (trace (DatapathTask.step 0) (DatapathTask.start 0) shortPolls)) =
        [0x201, 0x203] ∧
      ¬ Fresh (effects (trace (DatapathTask.step 0) (DatapathTask.start 0) shortPolls)) ∧
      ¬ Fresh (effects (trace IsocTask.step IsocTask.start shortIsocPolls)) := by
  unfold Fresh
  decide

/-- The condition fails for this run. -/
theorem fresh_iff_clear_shortPolls :
    Fresh (effects (trace (DatapathTask.step 0) (DatapathTask.start 0) shortPolls)) ↔
      Clear (Vector.replicate 8 0)
        (reads (effects (trace (DatapathTask.step 0) (DatapathTask.start 0) shortPolls))) :=
  (fresh_iff_clear 0 0 shortPolls shortIsocPolls).1 rfl

end Olimex2378.Verif.Samples
