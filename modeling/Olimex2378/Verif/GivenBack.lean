import Olimex2378.Host.DatapathHost

/-!
# Giving the terminals back

The host program changes the settings of the serial port and of `stdin`, and restores both
when the loop is left by `q`. Every exit after the port has become raw, and before the last
of the two restores, leaves a terminal as the program set it. A run gives both back in every
case exactly when it meets none of these exits. The two terminals are different ones: nothing is
said of a program whose serial port is the terminal of its `stdin`.
-/

namespace Olimex2378.Verif.GivenBack

open Host Run

variable {T : Type}

/-- The settings of both terminals before a run; nothing has been restored yet. -/
def before (port stdin origTios origStdinTios : T) : Session T where
  port
  stdin
  origTios
  origStdinTios
  portReset := none
  stdinReset := none

/-- The run has ended by returning or by `exit`. -/
def Ending.Ends : Ending → Prop
  | .returned => True
  | .exited _ => True
  | .looping => False
  | .crashed => False

/-- A terminal has its settings back, unless the call that restores it was made and failed. -/
def Back (after original : T) (reset : Option SysCall) : Prop :=
  after = original ∨ ∃ errno, reset = some (.failed errno)

/-- Whatever the settings are and whatever the two variables for the originals hold at first,
both terminals have their settings back when the run has ended. -/
def GivesBack (portname : String) (quiet : CInt) (beginTime : Int) (calls : Calls) : Prop :=
  ∀ (T : Type) (lib : TermiosLib T) (port stdin origTios origStdinTios : T),
    let ended := datapathTask lib portname quiet beginTime calls
      (before port stdin origTios origStdinTios)
    Ending.Ends ended.ending →
      Back ended.session.port port ended.session.portReset ∧
        Back ended.session.stdin stdin ended.session.stdinReset

/-- The serial port becomes raw. -/
def PortRaw (calls : PortCalls) : Prop :=
  ¬ calls.opened.slt 0 = true ∧ calls.tcgetattr = .done ∧ calls.tcsetattr = .done

/-- `stdin` is set. -/
def StdinSet (calls : StdinCalls) : Prop := calls.tcgetattr = .done ∧ calls.tcsetattr = .done

/-- What a read of the serial port makes of the loop: where a sample crashes the program, data
do. -/
def sampled (sampleCrashes : Bool) : SerialRead 8 → Option Ending
  | .data _ _ _ => if sampleCrashes then some .crashed else none
  | _ => none

/-- What ends the loop in an iteration: an `f` whose flush fails, a `q`, or a sample. -/
def stops (sampleCrashes : Bool) (poll : SessionPoll) : Option Ending :=
  match poll.stdin with
  | .key typed =>
    if ofByte typed = charConst 'f' then
      if poll.tcflush = .done then none else some (.exited "flush port failed.\n")
    else if ofByte typed = charConst 'q' then some .returned
    else sampled sampleCrashes poll.serial
  | _ => sampled sampleCrashes poll.serial

/-- What the first iteration that ends the loop makes of it. -/
def fate (sampleCrashes : Bool) (polls : List SessionPoll) : Ending :=
  (polls.findSome? (stops sampleCrashes)).getD .looping

/-- The program meets no exit that leaves a terminal as it set it, once the port is raw:
`init_stdin` and every flush succeed, and when the loop is left by `q` the port is restored,
and, unless the missing log file stops the program there, both originals had been kept; that
of `stdin` does not matter when its `tcsetattr` fails. -/
def Careful (quiet : CInt) (calls : Calls) : Prop :=
  PortRaw calls.port →
    StdinSet calls.stdin ∧ calls.tcflush = .done ∧
      (∀ message, fate (!calls.logOpens && quiet == 0) calls.polls ≠ .exited message) ∧
      (fate (!calls.logOpens && quiet == 0) calls.polls = .returned →
        calls.tcsetattrPort = .done ∧
          (calls.logOpens = true → calls.port.tcgetattrOrig = .done ∧
            (calls.stdin.tcgetattrOrig = .done ∨ calls.tcsetattrStdin ≠ .done)))

/-- A call that does not succeed returns something else than 0. -/
theorem value_ne_zero {call : SysCall} (fails : call ≠ .done) : call.value ≠ 0 := by
  intro zero
  exact fails (call.value_eq_zero.1 zero)

section Loop

variable {quiet : CInt} {logOpens : Bool} {fd : CInt} {t next : DatapathTask}
  {poll : SessionPoll} {rest : List SessionPoll} {out : List Effect}

/-- The first iteration decides, and where it does not, the others do. -/
theorem fate_cons (sampleCrashes : Bool) (poll : SessionPoll) (rest : List SessionPoll) :
    fate sampleCrashes (poll :: rest) =
      (stops sampleCrashes poll).getD (fate sampleCrashes rest) := by
  unfold fate
  rw [List.findSome?_cons]
  cases stops sampleCrashes poll with
  | none => rfl
  | some ending => rfl

/-- An iteration that logs nothing, or to a log file that is open, is followed by the rest while
the loop goes on. -/
theorem loopFrom_next (stepped : t.step quiet (poll.poll fd) = (next, out))
    (usable : logOpens = true ∨ logged out = []) :
    loopFrom quiet logOpens fd t (poll :: rest) =
      if next.status = .looping then loopFrom quiet logOpens fd next rest
      else loopEnding next.status := by
  have fine : (!logOpens && !(logged out).isEmpty) = false := by
    cases usable with
    | inl opens => simp [opens]
    | inr silent => simp [silent]
  simp only [loopFrom, stepped, fine, Bool.false_eq_true, if_false]
  cases next.status with
  | looping => rfl
  | quit => rfl
  | failed => rfl

/-- An iteration that logs to a log file that is not open crashes. -/
theorem loopFrom_crashes (stepped : t.step quiet (poll.poll fd) = (next, out))
    (unusable : ¬ (logOpens = true ∨ logged out = [])) :
    loopFrom quiet logOpens fd t (poll :: rest) = .crashed := by
  have broken : (!logOpens && !(logged out).isEmpty) = true := by
    simpa [not_or] using unusable
  simp only [loopFrom, stepped, broken, if_true]

/-- The serial port's part of an iteration changes neither how the loop stands nor the last
key. -/
theorem serial_frame (quiet : CInt) (t : DatapathTask) (read : SerialRead 8) :
    (t.serial quiet read).1.status = t.status ∧
      (t.serial quiet read).1.valueStdin = t.valueStdin := by
  cases read with
  | failed => exact ⟨rfl, rfl⟩
  | empty => exact ⟨rfl, rfl⟩
  | data bytes positive fits => exact ⟨rfl, rfl⟩

/-- A read crashes the program when it is logged to a log file that is not open. -/
theorem sampled_eq (t : DatapathTask) (read : SerialRead 8) :
    sampled (!logOpens && quiet == 0) read =
      if logOpens = true ∨ logged (t.serial quiet read).2 = [] then none else some .crashed := by
  cases read with
  | failed => exact (if_pos (Or.inr rfl)).symm
  | empty => exact (if_pos (Or.inr rfl)).symm
  | data bytes positive fits =>
    by_cases loud : quiet = 0
    · subst loud
      cases logOpens with
      | true => exact (if_pos (Or.inl rfl)).symm
      | false => exact (if_neg (by simp [DatapathTask.serial, logged])).symm
    · have off : (quiet == 0) = false := beq_false_of_ne loud
      have silent : logged (t.serial quiet (.data bytes positive fits)).2 = [] := by
        simp only [DatapathTask.serial, if_neg loud]
        rfl
      rw [if_pos (Or.inr silent), off, Bool.and_false]
      rfl

/-- An iteration that goes on to the serial port. -/
theorem loopFrom_serial (looping : t.status = .looping)
    (goesOn : t.terminal (poll.poll fd) = (next, out, true)) (running : next.status = .looping)
    (notQuit : next.valueStdin ≠ charConst 'q') (silent : logged out = [])
    (later : ∀ last : DatapathTask, last.status = .looping → last.valueStdin ≠ charConst 'q' →
      loopFrom quiet logOpens fd last rest = fate (!logOpens && quiet == 0) rest) :
    loopFrom quiet logOpens fd t (poll :: rest) =
      (sampled (!logOpens && quiet == 0) poll.serial).getD
        (fate (!logOpens && quiet == 0) rest) := by
  have stepped : t.step quiet (poll.poll fd) =
      ((next.serial quiet poll.serial).1, out ++ (next.serial quiet poll.serial).2) :=
    DatapathTask.step_polls quiet looping goesOn notQuit
  have logs : logged (out ++ (next.serial quiet poll.serial).2) =
      logged (next.serial quiet poll.serial).2 := by
    rw [logged_append, silent, List.nil_append]
  have frame := serial_frame quiet next poll.serial
  rw [sampled_eq next]
  by_cases usable : logOpens = true ∨ logged (next.serial quiet poll.serial).2 = []
  · have stays : (next.serial quiet poll.serial).1.status = .looping := frame.1.trans running
    have other : (next.serial quiet poll.serial).1.valueStdin ≠ charConst 'q' := by
      rw [frame.2]
      exact notQuit
    rw [loopFrom_next stepped (by rw [logs]; exact usable), if_pos stays, if_pos usable]
    exact later _ stays other
  · rw [loopFrom_crashes stepped (by rw [logs]; exact usable), if_neg usable]
    rfl

/-- Without a key the terminal's part of an iteration does nothing. -/
theorem terminal_silent (t : DatapathTask) {poll : Poll}
    (noKey : ∀ typed, poll.stdin ≠ .key typed) : t.terminal poll = (t, [], true) := by
  cases stdin : poll.stdin with
  | failed => simp only [DatapathTask.terminal, stdin]
  | empty => simp only [DatapathTask.terminal, stdin]
  | key typed => exact absurd stdin (noKey typed)

/-- Any key but `f` is sent and kept, and the iteration goes on. -/
theorem terminal_key (t : DatapathTask) {poll : Poll} {typed : UInt8}
    (isKey : poll.stdin = .key typed) (notFlush : ofByte typed ≠ charConst 'f') :
    ∃ next out, t.terminal poll = (next, out, true) ∧ next.status = t.status ∧
      next.valueStdin = ofByte typed ∧ logged out = [] := by
  simp only [DatapathTask.terminal, isKey, if_neg notFlush]
  split
  · exact ⟨_, _, rfl, rfl, rfl, rfl⟩
  · split
    · exact ⟨_, _, rfl, rfl, rfl, rfl⟩
    · exact ⟨_, _, rfl, rfl, rfl, rfl⟩

/-- An `f` whose flush succeeds takes the rest of the iteration. -/
theorem loopFrom_flushed {typed : UInt8} (looping : t.status = .looping)
    (isKey : poll.stdin = .key typed) (flush : ofByte typed = charConst 'f')
    (flushed : poll.tcflush = .done) :
    loopFrom quiet logOpens fd t (poll :: rest) =
      loopFrom quiet logOpens fd { t with valueStdin := charConst 'f' } rest := by
  have isStdin : (poll.poll fd).stdin = .key typed := isKey
  have zero : ¬ (poll.poll fd).flush ≠ 0 := by
    change ¬ (flushPort fd poll.tcflush).1 ≠ 0
    rw [flushPort_value, flushed]
    decide
  have terminal : t.terminal (poll.poll fd) =
      ({ t with valueStdin := charConst 'f' }, [.flushPort], false) := by
    simp only [DatapathTask.terminal, isStdin, flush, if_true, if_neg zero]
  have stepped := DatapathTask.step_cut quiet looping terminal
  rw [loopFrom_next stepped (Or.inr rfl), if_pos looping]

/-- An `f` whose flush fails ends the loop. -/
theorem loopFrom_unflushed {typed : UInt8} (looping : t.status = .looping)
    (isKey : poll.stdin = .key typed) (flush : ofByte typed = charConst 'f')
    (fails : poll.tcflush ≠ .done) :
    loopFrom quiet logOpens fd t (poll :: rest) = .exited "flush port failed.\n" := by
  have isStdin : (poll.poll fd).stdin = .key typed := isKey
  have nonzero : (poll.poll fd).flush ≠ 0 := by
    change (flushPort fd poll.tcflush).1 ≠ 0
    rw [flushPort_value]
    exact value_ne_zero fails
  have terminal : t.terminal (poll.poll fd) =
      ({ t with valueStdin := charConst 'f', status := .failed }, [.flushPort], false) := by
    simp only [DatapathTask.terminal, isStdin, flush, if_true, if_pos nonzero]
  have stepped := DatapathTask.step_cut quiet looping terminal
  have left : ¬ Status.failed = .looping := by decide
  rw [loopFrom_next stepped (Or.inr rfl), if_neg left, loopEnding]

/-- A `q` ends the loop. -/
theorem loopFrom_quit {typed : UInt8} (looping : t.status = .looping)
    (isKey : poll.stdin = .key typed) (quit : ofByte typed = charConst 'q') :
    loopFrom quiet logOpens fd t (poll :: rest) = .returned := by
  have isStdin : (poll.poll fd).stdin = .key typed := isKey
  have notFlush : ofByte typed ≠ charConst 'f' := by
    rw [quit]
    decide
  obtain ⟨next, out, goesOn, _, kept, silent⟩ := terminal_key t isStdin notFlush
  have stepped := DatapathTask.step_quits quiet looping goesOn (kept.trans quit)
  have left : ¬ Status.quit = .looping := by decide
  rw [loopFrom_next stepped (Or.inr silent), if_neg left, loopEnding]

/-- The loop ends as the keys, the flushes and the reads make it end. -/
theorem loopFrom_fate (polls : List SessionPoll) (looping : t.status = .looping)
    (notQuit : t.valueStdin ≠ charConst 'q') :
    loopFrom quiet logOpens fd t polls = fate (!logOpens && quiet == 0) polls := by
  induction polls generalizing t with
  | nil =>
    rw [loopFrom, looping]
    rfl
  | cons poll rest ih =>
    have later : ∀ last : DatapathTask, last.status = .looping →
        last.valueStdin ≠ charConst 'q' →
        loopFrom quiet logOpens fd last rest = fate (!logOpens && quiet == 0) rest :=
      fun last running other => ih running other
    rw [fate_cons, stops]
    cases stdin : poll.stdin with
    | failed =>
      have goesOn := terminal_silent t (fun typed (isKey : (poll.poll fd).stdin = _) =>
        StdinRead.noConfusion (stdin.symm.trans isKey))
      exact loopFrom_serial looping goesOn looping notQuit rfl later
    | empty =>
      have goesOn := terminal_silent t (fun typed (isKey : (poll.poll fd).stdin = _) =>
        StdinRead.noConfusion (stdin.symm.trans isKey))
      exact loopFrom_serial looping goesOn looping notQuit rfl later
    | key typed =>
      dsimp only
      by_cases flush : ofByte typed = charConst 'f'
      · rw [if_pos flush]
        by_cases flushed : poll.tcflush = .done
        · have other : charConst 'f' ≠ charConst 'q' := by decide
          rw [if_pos flushed, loopFrom_flushed looping stdin flush flushed]
          exact later { t with valueStdin := charConst 'f' } looping other
        · rw [if_neg flushed, loopFrom_unflushed looping stdin flush flushed]
          rfl
      · rw [if_neg flush]
        by_cases quit : ofByte typed = charConst 'q'
        · rw [if_pos quit, loopFrom_quit looping stdin quit]
          rfl
        · have isKey : (poll.poll fd).stdin = .key typed := stdin
          obtain ⟨next, out, goesOn, running, kept, silent⟩ := terminal_key t isKey flush
          have other : next.valueStdin ≠ charConst 'q' := by
            rw [kept]
            exact quit
          rw [if_neg quit]
          exact loopFrom_serial looping goesOn (running.trans looping) other silent later

end Loop

/-- The session after `init_port_raw` has made the port raw. -/
def opened (lib : TermiosLib T) (calls : PortCalls) (session : Session T) : Session T :=
  { session with
    origTios := calls.tcgetattrOrig.store session.port session.origTios
    port := rawTermios lib 115200 session.port }

/-- The session after `init_stdin` has set `stdin`. -/
def ready (lib : TermiosLib T) (calls : StdinCalls) (session : Session T) : Session T :=
  { session with
    origStdinTios := calls.tcgetattrOrig.store session.stdin session.origStdinTios
    stdin := stdinTermios lib session.stdin }

/-- The session while the loop runs. -/
def held (lib : TermiosLib T) (calls : Calls) (session : Session T) : Session T :=
  ready lib calls.stdin (opened lib calls.port session)

/-- `init_port_raw` makes the port raw when its calls succeed. -/
theorem initPortRaw_raw (lib : TermiosLib T) (pathname : String) {calls : PortCalls}
    (raw : PortRaw calls) (session : Session T) :
    initPortRaw lib pathname 115200 calls session =
      { session := opened lib calls session, value := calls.opened, messages := [] } := by
  have known : ¬ (115200 : Int) ∉ rates := by decide
  have read : ¬ calls.tcgetattr.value ≠ 0 := by rw [raw.2.1]; decide
  have set : ¬ calls.tcsetattr.value ≠ 0 := by rw [raw.2.2]; decide
  rw [initPortRaw, if_neg known, if_neg raw.1, if_neg read]
  simp only [if_neg set]
  rfl

/-- `init_port_raw` changes no settings when it fails. -/
theorem initPortRaw_fails (lib : TermiosLib T) (pathname : String) {calls : PortCalls}
    (notRaw : ¬ PortRaw calls) (session : Session T) :
    let result := initPortRaw lib pathname 115200 calls session
    result.value.slt 0 = true ∧ result.session.port = session.port ∧
      result.session.stdin = session.stdin := by
  have known : ¬ (115200 : Int) ∉ rates := by decide
  have negative : (-1 : CInt).slt 0 = true := by decide
  intro result
  unfold result initPortRaw
  rw [if_neg known]
  by_cases refused : calls.opened.slt 0 = true
  · rw [if_pos refused]
    exact ⟨negative, rfl, rfl⟩
  · rw [if_neg refused]
    by_cases read : calls.tcgetattr = .done
    · have set : calls.tcsetattr ≠ .done := fun done => notRaw ⟨refused, read, done⟩
      have readValue : ¬ calls.tcgetattr.value ≠ 0 := by rw [read]; decide
      rw [if_neg readValue]
      simp only [if_pos (value_ne_zero set)]
      exact ⟨negative, trivial, trivial⟩
    · rw [if_pos (value_ne_zero read)]
      exact ⟨negative, rfl, rfl⟩

/-- `init_stdin` sets `stdin` when its calls succeed. -/
theorem initStdin_set (lib : TermiosLib T) {calls : StdinCalls} (set : StdinSet calls)
    (session : Session T) :
    initStdin lib calls session =
      { session := ready lib calls session, value := 0, messages := [] } := by
  have read : ¬ calls.tcgetattr.value ≠ 0 := by rw [set.1]; decide
  have applied : ¬ calls.tcsetattr.value ≠ 0 := by rw [set.2]; decide
  rw [initStdin, if_neg read]
  simp only [if_neg applied]
  rfl

/-- `init_stdin` changes no settings when it fails. -/
theorem initStdin_fails (lib : TermiosLib T) {calls : StdinCalls} (notSet : ¬ StdinSet calls)
    (session : Session T) :
    let result := initStdin lib calls session
    result.value ≠ 0 ∧ result.session.port = session.port ∧
      result.session.portReset = session.portReset := by
  have negative : (-1 : CInt) ≠ 0 := by decide
  intro result
  unfold result initStdin
  by_cases read : calls.tcgetattr = .done
  · have applied : calls.tcsetattr ≠ .done := fun done => notSet ⟨read, done⟩
    have readValue : ¬ calls.tcgetattr.value ≠ 0 := by rw [read]; decide
    rw [if_neg readValue]
    simp only [if_pos (value_ne_zero applied)]
    exact ⟨negative, trivial, trivial⟩
  · rw [if_pos (value_ne_zero read)]
    exact ⟨negative, rfl, rfl⟩

section Runs

variable (lib : TermiosLib T) (portname : String) (quiet : CInt) (beginTime : Int)
  {calls : Calls} (session : Session T)

/-- A run whose port does not become raw leaves both terminals as they were. -/
theorem datapathTask_closed (notRaw : ¬ PortRaw calls.port) :
    let ended := datapathTask lib portname quiet beginTime calls session
    ended.session.port = session.port ∧ ended.session.stdin = session.stdin := by
  have fails := initPortRaw_fails lib portname notRaw session
  intro ended
  unfold ended datapathTask
  dsimp only
  rw [if_pos fails.1]
  exact fails.2

/-- A run that does not set `stdin` exits with the port raw. -/
theorem datapathTask_unset (raw : PortRaw calls.port) (notSet : ¬ StdinSet calls.stdin) :
    let ended := datapathTask lib portname quiet beginTime calls session
    ended.session.port = rawTermios lib 115200 session.port ∧
      ended.session.portReset = session.portReset ∧ Ending.Ends ended.ending := by
  have fails := initStdin_fails lib notSet (opened lib calls.port session)
  intro ended
  unfold ended datapathTask
  rw [initPortRaw_raw lib portname raw session]
  dsimp only
  rw [if_neg raw.1, if_pos fails.1]
  exact ⟨fails.2.1, fails.2.2, trivial⟩

/-- A run with both terminals set exits when its first flush fails, and otherwise goes on as
its loop ends. -/
theorem datapathTask_ready (raw : PortRaw calls.port) (set : StdinSet calls.stdin) :
    datapathTask lib portname quiet beginTime calls session =
      if calls.tcflush ≠ .done then
        { session := held lib calls session, ending := .exited "flush port failed.\n" }
      else
        match fate (!calls.logOpens && quiet == 0) calls.polls with
        | .returned => shutdown calls calls.port.opened (held lib calls session)
        | ending => { session := held lib calls session, ending } := by
  have notQuit : (DatapathTask.start beginTime).valueStdin ≠ charConst 'q' := by
    show (0 : CInt) ≠ charConst 'q'
    decide
  have loop : loopFrom quiet calls.logOpens calls.port.opened (DatapathTask.start beginTime)
      calls.polls = fate (!calls.logOpens && quiet == 0) calls.polls :=
    loopFrom_fate calls.polls rfl notQuit
  have read : ¬ (0 : CInt) ≠ 0 := by decide
  unfold datapathTask
  rw [initPortRaw_raw lib portname raw session]
  dsimp only
  rw [if_neg raw.1, initStdin_set lib set, flushPort_value, loop]
  dsimp only
  rw [if_neg read]
  by_cases flushed : calls.tcflush = .done
  · have zero : ¬ calls.tcflush.value ≠ 0 := by rw [flushed]; decide
    have kept : ¬ calls.tcflush ≠ .done := not_not_intro flushed
    cases fate (!calls.logOpens && quiet == 0) calls.polls with
    | looping => exact (if_neg zero).trans (if_neg kept).symm
    | returned => exact (if_neg zero).trans (if_neg kept).symm
    | exited message => exact (if_neg zero).trans (if_neg kept).symm
    | crashed => exact (if_neg zero).trans (if_neg kept).symm
  · rw [if_pos (value_ne_zero flushed), if_pos flushed]
    rfl

end Runs

section Shutdown

variable {calls : Calls} (fd : CInt) (session : Session T)

/-- A port that is not restored ends the shutdown before `stdin` is. -/
theorem shutdown_stopped (fails : calls.tcsetattrPort ≠ .done) :
    Ending.Ends (shutdown calls fd session).ending ∧
      (shutdown calls fd session).session.stdin = session.stdin ∧
      (shutdown calls fd session).session.stdinReset = session.stdinReset := by
  have value : (closePort fd calls.tcsetattrPort calls.close session).value ≠ 0 := by
    rw [closePort_value, if_neg fails]
    decide
  unfold shutdown
  simp only [if_pos value, closePort_session]
  exact ⟨trivial, trivial, trivial⟩

/-- The shutdown after the port has been restored. -/
theorem shutdown_closed (closes : calls.tcsetattrPort = .done) :
    shutdown calls fd session =
      let session := { session with port := session.origTios, portReset := some .done }
      if calls.logOpens then
        { session := (resetStdin calls.tcsetattrStdin session).session, ending := .returned }
      else { session, ending := .crashed } := by
  have value : ¬ (closePort fd calls.tcsetattrPort calls.close session).value ≠ 0 := by
    rw [closePort_value, if_pos closes]
    decide
  rw [closes] at value
  unfold shutdown
  simp only [closes, if_neg value, closePort_session]
  cases calls.logOpens with
  | true => rfl
  | false => rfl

/-- What `reset_stdin` leaves. -/
theorem resetStdin_session (tcsetattr : SysCall) :
    (resetStdin tcsetattr session).session =
      { session with
        stdin := tcsetattr.store session.origStdinTios session.stdin
        stdinReset := some tcsetattr } := by
  cases tcsetattr with
  | done => rfl
  | failed errno => rfl

end Shutdown

/-! ## The law

A run whose calls meet the condition gives both terminals back, whatever their settings are. For
one that does not, `madeByProgram` tells settings that the program made from others and shows
which terminal is left with them. -/

/-- Settings of which nothing is known but whether the program made them. -/
def madeByProgram : TermiosLib Bool where
  baud := fun _ => 0
  cfmakeraw := fun _ => true
  cfsetispeed := fun _ _ => true
  cfsetospeed := fun _ _ => true
  setLocalRead := fun _ => true
  clearIcanon := fun _ => true
  setEcho := fun _ => true
  setVmin := fun _ _ => true
  setVtime := fun _ _ => true

/-- A terminal that the program set, and that no call tried to restore, is not given back. -/
theorem not_back_made {reset : Option SysCall} (unmade : reset = none) :
    ¬ Back true false reset := by
  subst unmade
  rintro (same | ⟨errno, failed⟩)
  · cases same
  · cases failed

/-- A terminal whose restoring call succeeded is back only with its original settings. -/
theorem back_done {after original : T} : Back after original (some .done) ↔ after = original := by
  constructor
  · rintro (same | ⟨errno, failed⟩)
    · exact same
    · cases failed
  · exact Or.inl

/-- An original reads as the settings of the terminal only when it was kept. -/
theorem done_of_store {call : SysCall} (kept : call.store false true = false) :
    call = .done := by
  cases call with
  | done => rfl
  | failed errno => exact Bool.noConfusion kept

section Law

variable {portname : String} {quiet : CInt} {beginTime : Int} {calls : Calls}

/-- A run that ends as the program set the terminals does not give them back. -/
theorem not_given_held {ending : Ending}
    (run : datapathTask madeByProgram portname quiet beginTime calls
        (before false false true true) =
      { session := held madeByProgram calls (before false false true true), ending })
    (ends : Ending.Ends ending) :
    ¬ GivesBack portname quiet beginTime calls := by
  intro gives
  have shown := gives Bool madeByProgram false false true true
  simp only [run] at shown
  exact not_back_made rfl (shown ends).1

/-- A shutdown that gives the terminals back has restored the port, and its originals were kept
where the log file opened. -/
theorem originals_of_shutdown {fd : CInt}
    (gives : let ended := shutdown calls fd (held madeByProgram calls
        (before false false true true));
      Ending.Ends ended.ending → Back ended.session.port false ended.session.portReset ∧
        Back ended.session.stdin false ended.session.stdinReset) :
    calls.tcsetattrPort = .done ∧ (calls.logOpens = true → calls.port.tcgetattrOrig = .done ∧
      (calls.stdin.tcgetattrOrig = .done ∨ calls.tcsetattrStdin ≠ .done)) := by
  have closes : calls.tcsetattrPort = .done := by
    by_contra fails
    have stopped := shutdown_stopped fd
      (held madeByProgram calls (before false false true true)) fails
    have back := (gives stopped.1).2
    rw [stopped.2.1] at back
    exact not_back_made stopped.2.2 back
  refine ⟨closes, fun logs => ?_⟩
  rw [shutdown_closed _ _ closes] at gives
  simp only [logs, if_true, resetStdin_session] at gives
  have back := gives trivial
  have port : calls.port.tcgetattrOrig = .done := done_of_store (back_done.1 back.1)
  refine ⟨port, ?_⟩
  by_cases resets : calls.tcsetattrStdin = .done
  · have stdin := back.2
    rw [resets] at stdin
    exact Or.inl (done_of_store (back_done.1 stdin))
  · exact Or.inr resets

/-- A run that gives the terminals back meets no exit that leaves one set. -/
theorem careful_of_givesBack (gives : GivesBack portname quiet beginTime calls) :
    Careful quiet calls := by
  intro raw
  have shown := gives Bool madeByProgram false false true true
  have set : StdinSet calls.stdin := by
    by_contra notSet
    have unset := datapathTask_unset madeByProgram portname quiet beginTime
      (before false false true true) raw notSet
    have back := (shown unset.2.2).1
    rw [unset.1] at back
    exact not_back_made unset.2.1 back
  have run := datapathTask_ready madeByProgram portname quiet beginTime
    (before false false true true) raw set
  have flushed : calls.tcflush = .done := by
    by_contra fails
    rw [if_pos fails] at run
    exact not_given_held run trivial gives
  have kept : ¬ calls.tcflush ≠ .done := not_not_intro flushed
  rw [if_neg kept] at run
  refine ⟨set, flushed, fun message exits => ?_, fun returns => ?_⟩
  · rw [exits] at run
    exact not_given_held run trivial gives
  · rw [returns] at run
    simp only [run] at shown
    exact originals_of_shutdown shown

/-- A shutdown gives the terminals back when it restores the port and the originals were
kept. -/
theorem shutdown_gives {fd : CInt} (closes : calls.tcsetattrPort = .done)
    (originals : calls.logOpens = true → calls.port.tcgetattrOrig = .done ∧
      (calls.stdin.tcgetattrOrig = .done ∨ calls.tcsetattrStdin ≠ .done))
    (lib : TermiosLib T) (port stdin origTios origStdinTios : T) :
    let ended := shutdown calls fd (held lib calls (before port stdin origTios origStdinTios))
    Ending.Ends ended.ending → Back ended.session.port port ended.session.portReset ∧
      Back ended.session.stdin stdin ended.session.stdinReset := by
  intro ended
  unfold ended
  rw [shutdown_closed _ _ closes]
  cases logs : calls.logOpens with
  | false => exact fun none => none.elim
  | true =>
    intro _
    simp only [if_true, resetStdin_session]
    have portBack : calls.port.tcgetattrOrig.store port origTios = port := by
      rw [(originals logs).1]
      rfl
    refine ⟨back_done.2 portBack, ?_⟩
    cases resets : calls.tcsetattrStdin with
    | failed errno => exact Or.inr ⟨errno, rfl⟩
    | done =>
      have kept : calls.stdin.tcgetattrOrig = .done :=
        (originals logs).2.resolve_right (fun other => other resets)
      have stdinBack : calls.stdin.tcgetattrOrig.store stdin origStdinTios = stdin := by
        rw [kept]
        rfl
      exact back_done.2 stdinBack

/-- A run that meets no exit that leaves a terminal set gives the terminals back. -/
theorem givesBack_of_careful (careful : Careful quiet calls) :
    GivesBack portname quiet beginTime calls := by
  intro T lib port stdin origTios origStdinTios ended
  by_cases raw : PortRaw calls.port
  · have safe := careful raw
    have kept : ¬ calls.tcflush ≠ .done := not_not_intro safe.2.1
    have run := datapathTask_ready lib portname quiet beginTime
      (before port stdin origTios origStdinTios) raw safe.1
    rw [if_neg kept] at run
    unfold ended
    rw [run]
    cases ends : fate (!calls.logOpens && quiet == 0) calls.polls with
    | looping => exact fun none => none.elim
    | crashed => exact fun none => none.elim
    | exited message => exact (safe.2.2.1 message ends).elim
    | returned =>
      have restores := safe.2.2.2 ends
      exact shutdown_gives restores.1 restores.2 lib port stdin origTios origStdinTios
  · have closed := datapathTask_closed lib portname quiet beginTime
      (before port stdin origTios origStdinTios) raw
    intro _
    exact ⟨Or.inl closed.1, Or.inl closed.2⟩

end Law

/-- A run gives both terminals back exactly when it meets no exit that leaves one set. -/
theorem givesBack_iff_careful (portname : String) (quiet : CInt) (beginTime : Int)
    (calls : Calls) :
    GivesBack portname quiet beginTime calls ↔ Careful quiet calls := by
  constructor
  · exact careful_of_givesBack
  · exact givesBack_of_careful

/-- The calls of a run whose `stdin` is not a terminal, so that `tcgetattr` fails on it. -/
def stdinPiped : Calls where
  logOpens := true
  port := { opened := 4, tcgetattr := .done, tcgetattrOrig := .done, tcsetattr := .done }
  stdin := { tcgetattr := .failed enotty, tcgetattrOrig := .failed enotty, tcsetattr := .done }
  tcflush := .done
  polls := []
  tcsetattrPort := .done
  close := .done
  tcsetattrStdin := .done

/-- With a pipe as `stdin` the program exits and leaves the port raw, which nothing tried to
restore. -/
theorem stdinPiped_leaves_raw :
    datapathTask madeByProgram "/dev/ttyACM0" 0 0 stdinPiped (before false false true true) =
        { session := { before false false true true with port := true, origTios := false }
          ending := .exited "datapath_task: Failed to init stdin.\n" } ∧
      ¬ GivesBack "/dev/ttyACM0" 0 0 stdinPiped := by
  refine ⟨rfl, fun gives => ?_⟩
  have raw : PortRaw stdinPiped.port := by
    refine ⟨?_, rfl, rfl⟩
    show ¬ (4 : CInt).slt 0 = true
    decide
  have set : StdinSet stdinPiped.stdin := (careful_of_givesBack gives raw).1
  have done : SysCall.failed enotty = .done := set.1
  cases done

end Olimex2378.Verif.GivenBack
