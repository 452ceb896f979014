import Olimex2378.Verif.Commands
import Olimex2378.Verif.Conversation

/-!
# The numbers on the screen

The sampler counts its words from one, and starts again when it is reset. What the host program
prints, in a run in which only commands are typed, is this count as far as it has come, one
number for each read: no number is missing, repeated or out of place, and it starts again at one
at most once for each reset typed.
-/

namespace Olimex2378.Verif.Counting

open Bench Run Delivery Bytes
open Firmware (Device Platform StreamTask Round Iteration receivedIn sentIn passedIn fetched words
  wordBytes commandBytes RunstateType)

variable {P : Platform}

/-- A full round that fetches a command or nothing sends its word and nothing else. -/
theorem send_word (t : StreamTask) {round : Round} (full : round.Full)
    (command : ∀ byte ∈ round.poll.received, byte ∈ commandBytes) :
    (t.send round).2 = (t.iterate round.poll).2.sample.putword.toList.flatMap wordBytes := by
  have silent : (t.switch.1.command round.poll.c).2 = none := by
    unfold Firmware.Poll.c
    cases received : round.poll.received with
    | none => rfl
    | some byte => exact Alignment.command_silent _ (command byte received)
  have answer := Firmware.answer_of_silent silent
  have word : t.switch.2.bytes.take round.room = t.switch.2.bytes :=
    List.take_of_length_le (t.switch.2.bytes_length.trans full.1)
  simp only [StreamTask.send, StreamTask.iterate, Round.taken, answer, silent, word]
  cases sample : t.switch.2.putword <;> simp [Firmware.Sample.bytes, sample]

/-- Full rounds that fetch commands send the words of the loop. -/
theorem send_words (t : StreamTask) {rounds : List Round} (full : ∀ round ∈ rounds, round.Full)
    (commands : ∀ byte ∈ receivedIn rounds, byte ∈ commandBytes) :
    effects (trace StreamTask.send t rounds) =
      (words (trace StreamTask.iterate t (rounds.map Round.poll))).flatMap wordBytes := by
  induction rounds generalizing t with
  | nil => rfl
  | cons round rest ih =>
    rw [← List.singleton_append, Firmware.receivedIn_append, List.forall_mem_append] at commands
    have command : ∀ byte ∈ round.poll.received, byte ∈ commandBytes := by
      intro byte received
      apply commands.1
      simp [Option.mem_def.1 received]
    have now := send_word t (full round List.mem_cons_self) command
    have later := ih (t.send round).1 (fun other member => full other (List.mem_cons_of_mem _ member))
      commands.2
    rw [trace_cons, effects_cons, now, later, List.map_cons, trace_cons, words, words]
    cases word : (t.iterate round.poll).2.sample.putword <;>
      simp [word, StreamTask.send]

/-- The first words of a list, as bytes. -/
theorem take_words (words : List CInt) (count : Nat) :
    (words.flatMap wordBytes).take (count * 4) = (words.take count).flatMap wordBytes := by
  induction words generalizing count with
  | nil => simp
  | cons word rest ih =>
    cases count with
    | zero => simp
    | succ count =>
      have four : (wordBytes word).length = 4 := Firmware.wordBytes_length word
      have more : (count + 1) * 4 = (wordBytes word).length + count * 4 := by omega
      rw [List.flatMap_cons, more, List.take_length_add_append, ih, List.take_succ_cons,
        List.flatMap_cons]

/-- Reads of whole words that return a front of some words show these words, one for each
read. -/
theorem front_shown {words : List CInt} {pieces : List (List UInt8)}
    (whole : ∀ piece ∈ pieces, piece.length = 4)
    (front : pieces.flatten <+: words.flatMap wordBytes) :
    HostWords.shown (Vector.replicate 8 0) pieces =
        (words.take pieces.length).map BitVec.toNat ∧
      pieces.length ≤ words.length := by
  have length := length_flatten_of_whole whole
  constructor
  · apply HostWords.words_shown whole
    rw [← List.flatMap_def, ← take_words, ← length]
    exact List.prefix_iff_eq_take.1 front
  · have fits := front.length_le
    rw [Alignment.wholeWords_length] at fits
    omega

/-- The numbers from one on. -/
def countTo (n : Nat) : List CInt := (List.range n).map fun i => BitVec.ofNat 32 (i + 1)

/-- One number more. -/
theorem countTo_succ (n : Nat) : countTo (n + 1) = countTo n ++ [BitVec.ofNat 32 (n + 1)] := by
  simp [countTo, List.range_succ]

/-- The loop's words so far: counts that resets have ended, and the one since the last reset. -/
structure Counted (t : StreamTask) (history : List (Firmware.Poll × Iteration)) : Prop where
  /-- The loop agrees with its history. -/
  tracks : Commands.Tracks t history
  /-- The words are counts from one, one for each reset and one since. -/
  counts : ∃ ended : List Nat,
    ended.length = (history.map Prod.fst).countP (fun poll => Commands.control poll = some .reset) ∧
    words history = ended.flatMap countTo ++ countTo (Commands.wordsSinceReset history)

/-- An iteration adds the next number of the count, and ends the count when it is reset. -/
theorem counted_step {t : StreamTask} {history : List (Firmware.Poll × Iteration)}
    (counted : Counted t history) (poll : Firmware.Poll) :
    Counted (t.iterate poll).1 (history ++ [(poll, (t.iterate poll).2)]) := by
  obtain ⟨ended, resets, counts⟩ := counted.counts
  obtain ⟨_, _, sample, _⟩ := Commands.iterate_spec counted.tracks.valid poll
  have count := counted.tracks.count
  refine ⟨Commands.tracks_step counted.tracks poll, ?_⟩
  have longer : words (history ++ [(poll, (t.iterate poll).2)]) =
      ended.flatMap countTo ++ countTo (Commands.wordsSinceReset history +
        if (t.iterate poll).2.sample.putword.isSome then 1 else 0) := by
    have more : words (history ++ [(poll, (t.iterate poll).2)]) =
        words history ++ (t.iterate poll).2.sample.putword.toList := by
      cases word : (t.iterate poll).2.sample.putword <;> simp [words, word]
    rw [more, counts, List.append_assoc, sample, count]
    by_cases go : t.state = .go
    · simp only [if_pos go, Firmware.Sample.putword, Option.isSome_some, if_true,
        Option.toList_some]
      rw [countTo_succ, BitVec.ofNat_add]
      rfl
    · simp [go, Firmware.Sample.putword]
  rw [Commands.wordsSinceReset_append, longer]
  by_cases reset : Commands.control poll = some .reset
  · refine ⟨ended ++ [Commands.wordsSinceReset history +
      if (t.iterate poll).2.sample.putword.isSome then 1 else 0], ?_, ?_⟩
    · simp [reset, resets]
    · simp [reset, countTo]
  · refine ⟨ended, ?_, ?_⟩
    · simp [reset, resets]
    · rw [if_neg reset]

/-- The words of the loop are counts from one, one more than it has been reset. -/
theorem words_counted (polls : List Firmware.Poll) :
    ∃ lengths : List Nat,
      lengths.length = polls.countP (fun poll => Commands.control poll = some .reset) + 1 ∧
      words (trace StreamTask.iterate StreamTask.start polls) =
        lengths.flatMap countTo := by
  have counted : Counted (exec StreamTask.iterate StreamTask.start polls)
      (trace StreamTask.iterate StreamTask.start polls) :=
    invariant_of_forall Counted ⟨Commands.tracks_start, [], rfl, rfl⟩
      (fun _ _ poll counted => counted_step counted poll) polls
  obtain ⟨ended, resets, words⟩ := counted.counts
  rw [trace_inputs] at resets
  refine ⟨ended ++ [Commands.wordsSinceReset (trace StreamTask.iterate StreamTask.start polls)],
    ?_, ?_⟩
  · rw [List.length_append, resets, List.length_singleton]
  · rw [words, List.flatMap_append, List.flatMap_singleton]

/-- The first numbers of some counts are counts themselves, no more of them. -/
theorem take_counts (lengths : List Nat) (count : Nat) :
    ∃ shorter : List Nat, shorter.length ≤ lengths.length ∧
      (lengths.flatMap countTo).take count = shorter.flatMap countTo := by
  induction lengths generalizing count with
  | nil => exact ⟨[], le_rfl, by simp⟩
  | cons length rest ih =>
    have size : (countTo length).length = length := by simp [countTo]
    rcases Nat.le_total length count with long | short
    · obtain ⟨shorter, fewer, same⟩ := ih (count - length)
      refine ⟨length :: shorter, Nat.succ_le_succ fewer, ?_⟩
      have split : count = (countTo length).length + (count - length) := by omega
      rw [List.flatMap_cons, split, List.take_length_add_append, same, List.flatMap_cons]
    · refine ⟨[count], by simp, ?_⟩
      have inside : count ≤ (countTo length).length := by omega
      rw [List.flatMap_cons, List.take_append_of_le_length inside, List.flatMap_singleton]
      simp [countTo, ← List.map_take, List.take_range, Nat.min_eq_left short]

/-- Among commands only `r` resets the loop. -/
theorem control_reset {byte : UInt8} (command : byte ∈ commandBytes) (taken : Bool) :
    Commands.byteControl byte taken = some .reset ↔ byte = 'r'.toUInt8 := by
  simp only [commandBytes, List.mem_cons, List.not_mem_nil, or_false] at command
  rcases command with rfl | rfl | rfl | rfl <;> cases taken <;> decide

/-- The loop is reset once for each `r` that it fetches. -/
theorem resets_eq {polls : List Firmware.Poll}
    (commands : ∀ byte ∈ polls.filterMap Firmware.Poll.received, byte ∈ commandBytes) :
    polls.countP (fun poll => Commands.control poll = some .reset) =
      (polls.filterMap Firmware.Poll.received).count 'r'.toUInt8 := by
  induction polls with
  | nil => rfl
  | cons poll rest ih =>
    cases received : poll.received with
    | none =>
      rw [List.filterMap_cons_none received] at commands ⊢
      rw [← ih commands]
      simp [Commands.control, received]
    | some byte =>
      rw [List.filterMap_cons_some received] at commands ⊢
      rw [List.forall_mem_cons] at commands
      have resets := control_reset commands.1 poll.taken
      rw [List.countP_cons, List.count_cons, ih commands.2]
      simp [Commands.control, received, resets]

/-- The host program reads whole words, and everything put on the device is taken. -/
structure Smooth (out : List BenchEffect) : Prop where
  /-- Each read has returned one word. -/
  reads : ∀ piece ∈ Host.reads (hostEffects out), piece.length = 4
  /-- `txfifo` has taken every byte. -/
  puts : ∀ effect ∈ deviceEffects out, effect.refused = false

/-- What the host program prints are the first words of the loop, one for each read. -/
theorem words_printed (counted : P.fifo.Counted) {buffers : Nat} {d : Device P} {beginTime : Int}
    {events : List BenchEvent} (admitted : Admitted 0 buffers d beginTime events)
    (keeps : Along (Datapath.step 0) (Datapath.KeepsSamples 0) (Datapath.start d beginTime) events)
    (smooth : Smooth (output 0 d beginTime events))
    (typed : ∀ byte ∈ sent (output 0 d beginTime events), byte ∈ commandBytes) :
    let out := output 0 d beginTime events
    let own := Conversation.rounds 0 d beginTime events
    Host.printed (hostEffects out) =
        ((passedIn own).take (Host.reads (hostEffects out)).length).map BitVec.toNat ∧
      (Host.reads (hostEffects out)).length ≤ (passedIn own).length ∧
      Host.logged (hostEffects out) = Host.printed (hostEffects out) := by
  intro out own
  obtain ⟨fetches, _, sends, full⟩ := Conversation.rounds_account 0 d beginTime events
  have some := (Conversation.fetched_sent counted 0 d beginTime events).1
  rw [fetches] at some
  have front := ((Conversation.read_accepted admitted).2 keeps).trans sends
  have bytes : sentIn own = (passedIn own).flatMap wordBytes :=
    send_words StreamTask.start (full smooth.puts) (fun byte member => typed byte (some.subset member))
  rw [bytes] at front
  obtain ⟨polls, shows⟩ := Conversation.host_run 0 d beginTime events
  obtain ⟨prints, logs⟩ := HostWords.run_shows rfl (Host.DatapathTask.start beginTime) polls
  rw [← shows] at prints logs
  obtain ⟨screen, enough⟩ := front_shown smooth.reads front
  exact ⟨prints.trans screen, enough, logs.trans prints.symm⟩

/-- The key that ends the host program. -/
def quitKey : UInt8 := 'q'.toUInt8

/-- A byte written was the key just typed, and writing it does not end the iteration. -/
theorem terminal_writes {t : Host.DatapathTask} {poll : Host.Poll} {byte : UInt8}
    (written : byte ∈ writes (t.terminal poll).2.1) :
    (t.terminal poll).1.valueStdin = ofByte byte ∧ (t.terminal poll).2.2 = true := by
  unfold Host.DatapathTask.terminal at written ⊢
  cases stdin : poll.stdin with
  | failed => simp [stdin, writes] at written
  | empty => simp [stdin, writes] at written
  | key typed =>
    simp only [stdin] at written ⊢
    split_ifs at written ⊢ <;> simp_all [writes]

/-- A `q` written to the port ends the host program. -/
theorem quit_step {quiet : CInt} {t : Host.DatapathTask} {poll : Host.Poll}
    (written : quitKey ∈ writes (t.step quiet poll).2) :
    (t.step quiet poll).1.status ≠ .looping ∧ Host.reads (t.step quiet poll).2 = [] ∧
      Host.printed (t.step quiet poll).2 = [] ∧ Host.logged (t.step quiet poll).2 = [] := by
  have stepped := t.stepped quiet poll
  have typed : quitKey ∈ writes (t.terminal poll).2.1 →
      (t.terminal poll).1.valueStdin = ofByte quitKey ∧ (t.terminal poll).2.2 = true :=
    terminal_writes
  have silent := (HostWords.terminal_frame t poll).2
  generalize t.step quiet poll = result at stepped written ⊢
  cases stepped with
  | stopped left => simp [writes] at written
  | cut looping next out ends =>
    rw [ends] at typed
    exact absurd (typed written).2 (by simp)
  | quits looping next out goesOn quit =>
    rw [goesOn] at silent
    exact ⟨by simp, silent⟩
  | polls looping next out goesOn stays =>
    rw [goesOn] at typed
    have both : writes (out ++ (next.serial quiet poll.serial).2) =
        writes out ++ writes (next.serial quiet poll.serial).2 := List.filterMap_append
    rw [both, (serial_silent quiet next poll.serial).1, List.append_nil] at written
    exact absurd (typed written).1 stays

/-- A host program that has ended does nothing more. -/
theorem ended_run {quiet : CInt} {t : Host.DatapathTask} (ended : t.status ≠ .looping)
    (polls : List Host.Poll) : effects (trace (Host.DatapathTask.step quiet) t polls) = [] := by
  have stays (poll : Host.Poll) : t.step quiet poll = (t, []) := by
    rw [Host.DatapathTask.step, if_neg ended]
  induction polls with
  | nil => rfl
  | cons poll rest ih => rw [trace_cons, effects_cons, stays, ih]; rfl

/-- Only the host program's writes go to the port. -/
theorem sent_of_step {quiet : CInt} {s : Datapath P} {event : BenchEvent} {byte : UInt8}
    (member : byte ∈ sent (s.step quiet event).2) :
    ∃ poll taken, event = .host poll taken ∧ byte ∈ writes (s.host.step quiet poll).2 := by
  cases event with
  | collect =>
    simp only [Datapath.step] at member
    cases held : s.outstanding <;> simp [held, sent] at member
  | transfer count => simp [Datapath.step, sent] at member
  | host poll taken =>
    refine ⟨poll, taken, rfl, ?_⟩
    simp only [Datapath.step] at member
    rw [(hostStep_parts quiet s poll taken).2.2] at member
    cases taken with
    | false => simp at member
    | true => simpa using member
  | _ => simp [Datapath.step, Datapath.device] at member

/-- The host program's effects in a run, split at one of its iterations. -/
theorem host_split (quiet : CInt) (d : Device P) (beginTime : Int) (before after : List BenchEvent)
    (poll : Host.Poll) (taken : Bool) :
    ∃ polls, hostEffects (output quiet d beginTime (before ++ .host poll taken :: after)) =
      hostEffects (output quiet d beginTime before) ++
        (((final quiet d beginTime before).host.step quiet poll).2 ++
          effects (trace (Host.DatapathTask.step quiet)
            ((final quiet d beginTime before).host.step quiet poll).1 polls)) := by
  have later := (hostPart P quiet).effects_run (final quiet d beginTime before)
    (.host poll taken :: after)
  have split : output quiet d beginTime (before ++ .host poll taken :: after) =
      output quiet d beginTime before ++ effects (trace (Datapath.step quiet)
        (final quiet d beginTime before) (.host poll taken :: after)) := by
    rw [output, trace_append, effects_append]
    rfl
  refine ⟨(hostPart P quiet).inputs
    ((final quiet d beginTime before).step quiet (.host poll taken)).1 after, ?_⟩
  rw [split, hostEffects_append]
  exact congrArg _ later

/-- Nothing is read, printed or logged after a `q` has been written. -/
theorem before_quit (quiet : CInt) (d : Device P) (beginTime : Int) (events : List BenchEvent) :
    ∃ before after, events = before ++ after ∧ quitKey ∉ sent (output quiet d beginTime before) ∧
      Host.reads (hostEffects (output quiet d beginTime events)) =
        Host.reads (hostEffects (output quiet d beginTime before)) ∧
      Host.printed (hostEffects (output quiet d beginTime events)) =
        Host.printed (hostEffects (output quiet d beginTime before)) ∧
      Host.logged (hostEffects (output quiet d beginTime events)) =
        Host.logged (hostEffects (output quiet d beginTime before)) := by
  have unsent : ∀ {inputs : List BenchEvent},
      Along (Datapath.step quiet) (fun s event => quitKey ∉ sent (s.step quiet event).2)
        (Datapath.start d beginTime) inputs → quitKey ∉ sent (output quiet d beginTime inputs) := by
    intro inputs met
    apply invariant (fun _ history => quitKey ∉ sent (effects history)) _ _ met
    · simp [sent]
    · intro s history event holds now
      rw [effects_snoc, sent_append, List.mem_append, not_or]
      exact ⟨holds, now⟩
  rcases along_or_refused (Datapath.step quiet)
      (fun s event => quitKey ∉ sent (s.step quiet event).2) (Datapath.start d beginTime) events
    with met | ⟨before, event, after, rfl, met, quits⟩
  · exact ⟨events, [], by simp, unsent met, rfl, rfl, rfl⟩
  · refine ⟨before, event :: after, rfl, unsent met, ?_⟩
    obtain ⟨poll, taken, rfl, written⟩ := sent_of_step (not_not.1 quits)
    obtain ⟨ended, noRead, noPrint, noLog⟩ := quit_step written
    obtain ⟨polls, split⟩ := host_split quiet d beginTime before after poll taken
    have silent : effects (trace (Host.DatapathTask.step quiet)
        ((final quiet d beginTime before).host.step quiet poll).1 polls) = [] :=
      ended_run ended polls
    rw [silent, List.append_nil] at split
    rw [split, Host.reads_append, Host.printed_append, Host.logged_append]
    refine ⟨?_, ?_, ?_⟩
    · exact (congrArg _ noRead).trans (List.append_nil _)
    · exact (congrArg _ noPrint).trans (List.append_nil _)
    · exact (congrArg _ noLog).trans (List.append_nil _)

/-- Only commands are typed, and `q` to end the host program. -/
def OnlyCommands (out : List BenchEffect) : Prop :=
  ∀ byte ∈ sent out, byte ∈ commandBytes ∨ byte = quitKey

/-- A run in which only commands and `q` are typed shows what its front shows in which only
commands are. -/
theorem front_of_commands {quiet : CInt} {d : Device P} {beginTime : Int}
    {events : List BenchEvent} (typed : OnlyCommands (output quiet d beginTime events)) :
    ∃ before after, events = before ++ after ∧
      (∀ byte ∈ sent (output quiet d beginTime before), byte ∈ commandBytes) ∧
      output quiet d beginTime before <+: output quiet d beginTime events ∧
      Host.reads (hostEffects (output quiet d beginTime events)) =
        Host.reads (hostEffects (output quiet d beginTime before)) ∧
      Host.printed (hostEffects (output quiet d beginTime events)) =
        Host.printed (hostEffects (output quiet d beginTime before)) ∧
      Host.logged (hostEffects (output quiet d beginTime events)) =
        Host.logged (hostEffects (output quiet d beginTime before)) := by
  obtain ⟨before, after, rfl, noQuit, shows⟩ := before_quit quiet d beginTime events
  have front : output quiet d beginTime before <+: output quiet d beginTime (before ++ after) := by
    rw [output, output, trace_append, effects_append]
    exact List.prefix_append _ _
  refine ⟨before, after, rfl, ?_, front, shows⟩
  intro byte member
  have inside : byte ∈ sent (output quiet d beginTime (before ++ after)) :=
    (front.filterMap _).subset member
  rcases typed byte inside with command | quits
  · exact command
  · exact absurd (quits ▸ member) noQuit

/-- What the host program prints, also when it has been ended: what it has printed before. -/
theorem words_until_quit (counted : P.fifo.Counted) {buffers : Nat} {d : Device P}
    {beginTime : Int} {events : List BenchEvent} (admitted : Admitted 0 buffers d beginTime events)
    (keeps : Along (Datapath.step 0) (Datapath.KeepsSamples 0) (Datapath.start d beginTime) events)
    (smooth : Smooth (output 0 d beginTime events))
    (typed : OnlyCommands (output 0 d beginTime events)) :
    let out := output 0 d beginTime events
    ∃ before after, events = before ++ after ∧
      (∀ byte ∈ sent (output 0 d beginTime before), byte ∈ commandBytes) ∧
      output 0 d beginTime before <+: out ∧
      Host.printed (hostEffects out) =
        ((passedIn (Conversation.rounds 0 d beginTime before)).take
          (Host.reads (hostEffects out)).length).map BitVec.toNat ∧
      (Host.reads (hostEffects out)).length ≤
        (passedIn (Conversation.rounds 0 d beginTime before)).length ∧
      Host.logged (hostEffects out) = Host.printed (hostEffects out) := by
  intro out
  obtain ⟨before, after, rfl, commands, front, reads, prints, logs⟩ := front_of_commands typed
  have calm : Smooth (output 0 d beginTime before) := by
    constructor
    · rw [← reads]
      exact smooth.reads
    · exact fun effect member => smooth.puts effect ((front.filterMap _).subset member)
  obtain ⟨shown, enough, logged⟩ := words_printed counted
    ((along_append _ _ _ _ _).1 admitted).1 ((along_append _ _ _ _ _).1 keeps).1 calm commands
  refine ⟨before, after, rfl, commands, front, ?_, reads ▸ enough, ?_⟩
  · rw [prints, shown, ← reads]
  · rw [logs, prints, logged]

/-- The screen shows the loop. In every admitted run in which only commands and `q` are typed,
nothing on its way to the host is discarded, no put is refused and each read returns one word,
the numbers printed and logged are, one for each read, the first words that the sampler loop
alone passes to `VCOM_putword` in the rounds that the main loop has begun; and these have fetched
keys that were typed, in their order. -/
theorem host_prints_the_words (counted : P.fifo.Counted) (buffers : Nat) (d : Device P)
    (beginTime : Int) (events : List BenchEvent)
    (admitted : Admitted 0 buffers d beginTime events)
    (keeps : Along (Datapath.step 0) (Datapath.KeepsSamples 0) (Datapath.start d beginTime) events)
    (smooth : Smooth (output 0 d beginTime events))
    (typed : OnlyCommands (output 0 d beginTime events)) :
    let out := output 0 d beginTime events
    let own := Conversation.rounds 0 d beginTime events
    (receivedIn own).Sublist (sent out) ∧
      Host.printed (hostEffects out) =
        ((passedIn own).take (Host.reads (hostEffects out)).length).map BitVec.toNat ∧
      (Host.printed (hostEffects out)).length = (Host.reads (hostEffects out)).length ∧
      Host.logged (hostEffects out) = Host.printed (hostEffects out) := by
  intro out own
  obtain ⟨before, after, rfl, _, front, prints, enough, logs⟩ :=
    words_until_quit counted admitted keeps smooth typed
  obtain ⟨fetches, passes, _, _⟩ := Conversation.rounds_account 0 d beginTime (before ++ after)
  have received := (Conversation.fetched_sent counted 0 d beginTime (before ++ after)).1
  have earlier : passedIn (Conversation.rounds 0 d beginTime before) <+: passedIn own := by
    rw [← passes, ← (Conversation.rounds_account 0 d beginTime before).2.1]
    exact (front.filterMap _).filterMap _
  obtain ⟨later, more⟩ := earlier
  refine ⟨fetches ▸ received, ?_, ?_, logs⟩
  · rw [prints, ← more, List.take_append_of_le_length enough]
  · rw [prints, List.length_map, List.length_take, Nat.min_eq_left enough]

/-- The screen counts. In such a run the numbers printed and logged, one for each read, count up
from one, modulo 2^32, without a gap or a repetition, and start again at one at most once for
each `r` typed. -/
theorem host_counts (counted : P.fifo.Counted) (buffers : Nat) (d : Device P)
    (beginTime : Int) (events : List BenchEvent)
    (admitted : Admitted 0 buffers d beginTime events)
    (keeps : Along (Datapath.step 0) (Datapath.KeepsSamples 0) (Datapath.start d beginTime) events)
    (smooth : Smooth (output 0 d beginTime events))
    (typed : OnlyCommands (output 0 d beginTime events)) :
    let out := output 0 d beginTime events
    ∃ lengths : List Nat, lengths.length ≤ (sent out).count 'r'.toUInt8 + 1 ∧
      Host.printed (hostEffects out) =
        lengths.flatMap (fun n => (List.range n).map fun i => (i + 1) % 2 ^ 32) ∧
      (Host.printed (hostEffects out)).length = (Host.reads (hostEffects out)).length ∧
      Host.logged (hostEffects out) = Host.printed (hostEffects out) := by
  intro out
  obtain ⟨before, after, rfl, commands, front, prints, enough, logs⟩ :=
    words_until_quit counted admitted keeps smooth typed
  let own := Conversation.rounds 0 d beginTime before
  have fetches : fetched (deviceEffects (output 0 d beginTime before)) =
      (own.map Round.poll).filterMap Firmware.Poll.received := by
    rw [List.filterMap_map]
    exact (Conversation.rounds_account 0 d beginTime before).1
  have received := (Conversation.fetched_sent counted 0 d beginTime before).1
  rw [fetches] at received
  obtain ⟨lengths, resets, words⟩ := words_counted (own.map Round.poll)
  obtain ⟨shorter, fewer, counts⟩ := take_counts lengths (Host.reads (hostEffects out)).length
  have typedResets := (received.trans (front.filterMap _).sublist).count_le 'r'.toUInt8
  rw [resets_eq fun byte member => commands byte (received.subset member)] at resets
  refine ⟨shorter, (fewer.trans resets.le).trans (Nat.succ_le_succ typedResets), ?_, ?_, logs⟩
  · rw [prints, passedIn, words, counts, List.map_flatMap]
    congr 1
    funext n
    simp [countTo]
  · rw [prints, List.length_map, List.length_take, Nat.min_eq_left enough]

/-- An iteration of the host program that reads a word below 256. -/
def wordRead (low : UInt8) : BenchEvent :=
  .host { stdin := .empty, flush := 0, now := 0,
          serial := .data [low, 0, 0, 0] (by simp) (by simp) } true

/-- A run in which the sampler is started, reset and started again, and the host program is
ended. -/
def countRun : List BenchEvent :=
  [Conversation.keyTyped 'g'.toUInt8, .transfer 1, .bulkOut] ++ List.replicate 8 .main ++
    [.frame, .collect, wordRead 1, .bulkIn, Conversation.keyTyped 'r'.toUInt8, Conversation.keyTyped 'g'.toUInt8,
      .transfer 2, .bulkOut] ++ List.replicate 14 .main ++
    [.frame, .collect, wordRead 2, wordRead 1, Conversation.keyTyped quitKey]

/-- Each step of this run loses nothing on its way to the host. -/
theorem countRun_keeps :
    Along (Datapath.step 0) (Datapath.KeepsSamples 0) (Datapath.start (Device.blank 64) 0)
      countRun := by
  have same := (samples_account (show Admitted 0 1 (Device.blank 64) 0 countRun by
    decide +kernel)).2
  apply same.1
  decide +kernel

/-- The numbers of this run. -/
theorem host_prints_the_words_countRun :
    let out := output 0 (Device.blank 64) 0 countRun
    let own := Conversation.rounds 0 (Device.blank 64) 0 countRun
    (receivedIn own).Sublist (sent out) ∧
      Host.printed (hostEffects out) =
        ((passedIn own).take (Host.reads (hostEffects out)).length).map BitVec.toNat ∧
      (Host.printed (hostEffects out)).length = (Host.reads (hostEffects out)).length ∧
      Host.logged (hostEffects out) = Host.printed (hostEffects out) :=
  host_prints_the_words (Fifo.ofList_counted UInt8 64) 1 (Device.blank 64) 0 countRun
    (by decide +kernel) countRun_keeps ⟨by decide +kernel, by decide +kernel⟩
    (by unfold OnlyCommands; decide +kernel)

/-- They are 1 and 2, and 1 again. -/
theorem host_counts_countRun :
    let out := output 0 (Device.blank 64) 0 countRun
    ∃ lengths : List Nat, lengths.length ≤ (sent out).count 'r'.toUInt8 + 1 ∧
      Host.printed (hostEffects out) =
        lengths.flatMap (fun n => (List.range n).map fun i => (i + 1) % 2 ^ 32) ∧
      (Host.printed (hostEffects out)).length = (Host.reads (hostEffects out)).length ∧
      Host.logged (hostEffects out) = Host.printed (hostEffects out) :=
  host_counts (Fifo.ofList_counted UInt8 64) 1 (Device.blank 64) 0 countRun
    (by decide +kernel) countRun_keeps ⟨by decide +kernel, by decide +kernel⟩
    (by unfold OnlyCommands; decide +kernel)

example : Host.printed (hostEffects (output 0 (Device.blank 64) 0 countRun)) = [1, 2, 1] := by
  decide +kernel

end Olimex2378.Verif.Counting
