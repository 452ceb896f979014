import Olimex2378.Host.DatapathTask
import Olimex2378.Verif.Words

/-!
# The host's reading of the stream

The device sends words of four bytes; the host prints what each read of up to eight bytes
has left in memory, one number for a read, and never joins two reads or parts one. Which
reads there are and how long they are does not depend on the bytes, so the host can be
compared with itself on other words that reach it in the same pieces: it prints the words
for all of them exactly when every piece is one word.
-/

namespace Olimex2378.Verif.HostWords

open Host Run Bytes

/-- What is printed for some reads: the memory after each of them, read as a number. -/
def shown (memory : Vector UInt8 8) : List (List UInt8) → List Nat
  | [] => []
  | bytes :: rest =>
    leValue (overwrite memory bytes).toList :: shown (overwrite memory bytes) rest

/-- One number is printed for each read. -/
@[simp] theorem shown_length (memory : Vector UInt8 8) (pieces : List (List UInt8)) :
    (shown memory pieces).length = pieces.length := by
  induction pieces generalizing memory with
  | nil => rfl
  | cons bytes rest ih => simp [shown, ih]

/-- What is printed for more reads. -/
theorem shown_append (memory : Vector UInt8 8) (first second : List (List UInt8)) :
    shown memory (first ++ second) =
      shown memory first ++ shown (first.foldl overwrite memory) second := by
  induction first generalizing memory with
  | nil => rfl
  | cons bytes rest ih => simp [shown, ih]

/-- The terminal's part of an iteration leaves the serial port and its memory alone. -/
theorem terminal_frame (t : DatapathTask) (poll : Poll) :
    (t.terminal poll).1.valueSerial = t.valueSerial ∧ reads (t.terminal poll).2.1 = [] ∧
      printed (t.terminal poll).2.1 = [] ∧ logged (t.terminal poll).2.1 = [] := by
  cases stdin : poll.stdin with
  | failed => simp [DatapathTask.terminal, stdin, reads, printed, logged]
  | empty => simp [DatapathTask.terminal, stdin, reads, printed, logged]
  | key typed =>
    simp only [DatapathTask.terminal, stdin]
    split_ifs <;> exact ⟨rfl, rfl, rfl, rfl⟩

/-- The serial port's part of an iteration keeps what it reads in memory, and prints and logs
the memory. -/
theorem serial_shows {quiet : CInt} (loud : quiet = 0) (t : DatapathTask) (read : SerialRead 8) :
    (t.serial quiet read).1.valueSerial =
        (reads (t.serial quiet read).2).foldl overwrite t.valueSerial ∧
      printed (t.serial quiet read).2 = shown t.valueSerial (reads (t.serial quiet read).2) ∧
      logged (t.serial quiet read).2 = shown t.valueSerial (reads (t.serial quiet read).2) := by
  subst loud
  cases read with
  | failed => exact ⟨rfl, rfl, rfl⟩
  | empty => exact ⟨rfl, rfl, rfl⟩
  | data bytes positive fits => exact ⟨rfl, rfl, rfl⟩

/-- A step prints and logs the memory after its reads. -/
theorem step_shows {quiet : CInt} (loud : quiet = 0) (t : DatapathTask) (poll : Poll) :
    (t.step quiet poll).1.valueSerial =
        (reads (t.step quiet poll).2).foldl overwrite t.valueSerial ∧
      printed (t.step quiet poll).2 = shown t.valueSerial (reads (t.step quiet poll).2) ∧
      logged (t.step quiet poll).2 = shown t.valueSerial (reads (t.step quiet poll).2) := by
  have stepped := t.stepped quiet poll
  generalize t.step quiet poll = result at stepped ⊢
  have frame := terminal_frame t poll
  cases stepped with
  | stopped left => exact ⟨rfl, rfl, rfl⟩
  | cut looping next out terminal =>
    rw [terminal] at frame
    obtain ⟨memory, noRead, noPrint, noLog⟩ := frame
    simp only at memory noRead noPrint noLog
    simp [noRead, noPrint, noLog, memory, shown]
  | quits looping next out terminal quit =>
    rw [terminal] at frame
    obtain ⟨memory, noRead, noPrint, noLog⟩ := frame
    simp only at memory noRead noPrint noLog
    simp [noRead, noPrint, noLog, memory, shown]
  | polls looping next out terminal stays =>
    rw [terminal] at frame
    obtain ⟨memory, noRead, noPrint, noLog⟩ := frame
    obtain ⟨kept, prints, logs⟩ := serial_shows loud next poll.serial
    simp only at memory noRead noPrint noLog
    simp [noRead, noPrint, noLog, ← memory, kept, prints, logs]

/-- A run prints and logs the memory after each of its reads. -/
theorem run_shows {quiet : CInt} (loud : quiet = 0) (t : DatapathTask) (polls : List Poll) :
    printed (effects (trace (DatapathTask.step quiet) t polls)) =
        shown t.valueSerial (reads (effects (trace (DatapathTask.step quiet) t polls))) ∧
      logged (effects (trace (DatapathTask.step quiet) t polls)) =
        shown t.valueSerial (reads (effects (trace (DatapathTask.step quiet) t polls))) := by
  induction polls generalizing t with
  | nil => exact ⟨rfl, rfl⟩
  | cons poll rest ih =>
    obtain ⟨memory, prints, logs⟩ := step_shows loud t poll
    obtain ⟨later, laterLog⟩ := ih (t.step quiet poll).1
    rw [memory] at later laterLog
    simp only [trace_cons, effects_cons, printed_append, logged_append, reads_append,
      shown_append, prints, logs, later, laterLog, and_self]

/-- As many bytes, each of them 1. -/
def maskBytes (bytes : List UInt8) : List UInt8 := List.replicate bytes.length 1

/-- Masking keeps the number of bytes. -/
@[simp] theorem maskBytes_length (bytes : List UInt8) :
    (maskBytes bytes).length = bytes.length := List.length_replicate

/-- A read of the same length with every byte 1. -/
def maskRead : SerialRead 8 → SerialRead 8
  | .failed => .failed
  | .empty => .empty
  | .data bytes positive fits =>
    .data (maskBytes bytes) (by simpa using positive) (by simpa using fits)

/-- An iteration that meets the same results of every call, but for the bytes of its read. -/
def mask (poll : Poll) : Poll := { poll with serial := maskRead poll.serial }

/-- Masking twice is masking once. -/
theorem mask_mask (poll : Poll) : mask (mask poll) = mask poll := by
  obtain ⟨stdin, flush, now, serial⟩ := poll
  cases serial <;> simp [mask, maskRead, maskBytes]

/-- The variables with another memory of the serial port. -/
def withMemory (t : DatapathTask) (memory : Vector UInt8 8) : DatapathTask :=
  { t with valueSerial := memory }

/-- Another memory keeps where the loop stands. -/
@[simp] theorem withMemory_status (t : DatapathTask) (memory : Vector UInt8 8) :
    (withMemory t memory).status = t.status := rfl

/-- Another memory keeps the last key. -/
@[simp] theorem withMemory_valueStdin (t : DatapathTask) (memory : Vector UInt8 8) :
    (withMemory t memory).valueStdin = t.valueStdin := rfl

/-- The terminal's part of an iteration does not look at the serial port. -/
theorem terminal_mask (t : DatapathTask) (memory : Vector UInt8 8) (poll : Poll) :
    (withMemory t memory).terminal (mask poll) =
      (withMemory (t.terminal poll).1 memory, (t.terminal poll).2) := by
  cases stdin : poll.stdin with
  | failed => simp [DatapathTask.terminal, mask, stdin]
  | empty => simp [DatapathTask.terminal, mask, stdin]
  | key typed =>
    simp only [DatapathTask.terminal, mask, stdin]
    split_ifs <;> rfl

/-- The serial port's part of an iteration reads as many bytes of another content. -/
theorem serial_mask (quiet : CInt) (t : DatapathTask) (memory : Vector UInt8 8)
    (read : SerialRead 8) :
    ∃ kept,
      ((withMemory t memory).serial quiet (maskRead read)).1 =
        withMemory (t.serial quiet read).1 kept ∧
      reads ((withMemory t memory).serial quiet (maskRead read)).2 =
        (reads (t.serial quiet read).2).map maskBytes := by
  cases read with
  | failed => exact ⟨memory, rfl, rfl⟩
  | empty => exact ⟨memory, rfl, rfl⟩
  | data bytes positive fits =>
    refine ⟨overwrite memory (maskBytes bytes), ?_, ?_⟩
    · simp [DatapathTask.serial, maskRead, withMemory]
    · simp only [DatapathTask.serial, maskRead]
      split <;> rfl

/-- An iteration on other bytes in the same pieces goes the same way. -/
theorem iterate_mask (quiet : CInt) (t : DatapathTask) (memory : Vector UInt8 8) (poll : Poll) :
    ∃ kept,
      ((withMemory t memory).iterate quiet (mask poll)).1 =
        withMemory (t.iterate quiet poll).1 kept ∧
      reads ((withMemory t memory).iterate quiet (mask poll)).2 =
        (reads (t.iterate quiet poll).2).map maskBytes := by
  have silent := (terminal_frame t poll).2.1
  unfold DatapathTask.iterate
  rw [terminal_mask]
  rcases terminal : t.terminal poll with ⟨next, out, _ | _⟩
  · rw [terminal] at silent
    refine ⟨memory, rfl, ?_⟩
    simp only at silent
    simp [silent]
  · rw [terminal] at silent
    simp only at silent
    by_cases quit : next.valueStdin = charConst 'q'
    · refine ⟨memory, ?_, ?_⟩
      · simp only [withMemory_valueStdin, quit, if_true]
        rfl
      · simp [quit, silent]
    · obtain ⟨kept, state, pieces⟩ := serial_mask quiet next memory poll.serial
      refine ⟨kept, ?_, ?_⟩
      · simpa [quit, mask] using state
      · simpa [quit, mask, silent] using pieces

/-- A step on other bytes in the same pieces goes the same way. -/
theorem step_mask (quiet : CInt) (t : DatapathTask) (memory : Vector UInt8 8) (poll : Poll) :
    ∃ kept,
      ((withMemory t memory).step quiet (mask poll)).1 =
        withMemory (t.step quiet poll).1 kept ∧
      reads ((withMemory t memory).step quiet (mask poll)).2 =
        (reads (t.step quiet poll).2).map maskBytes := by
  by_cases looping : t.status = .looping
  · simpa [DatapathTask.step, looping] using iterate_mask quiet t memory poll
  · refine ⟨memory, ?_, ?_⟩
    · simp [DatapathTask.step, looping]
    · simp [DatapathTask.step, looping, reads]

/-- A run on other bytes in the same pieces has reads of the same lengths. -/
theorem run_mask (quiet : CInt) (t : DatapathTask) (memory : Vector UInt8 8)
    (polls : List Poll) :
    reads (effects (trace (DatapathTask.step quiet) (withMemory t memory) (polls.map mask))) =
      (reads (effects (trace (DatapathTask.step quiet) t polls))).map maskBytes := by
  induction polls generalizing t memory with
  | nil => rfl
  | cons poll rest ih =>
    obtain ⟨kept, state, pieces⟩ := step_mask quiet t memory poll
    simp only [List.map_cons, trace_cons, effects_cons, reads_append, List.map_append, pieces,
      state, ih]

/-- Pieces of four bytes leave the high half of the memory zero, so each is shown as the
number that it encodes. -/
theorem shown_whole {memory : Vector UInt8 8}
    (clear : memory.toList.drop 4 = List.replicate 4 0) {pieces : List (List UInt8)}
    (whole : ∀ piece ∈ pieces, piece.length = 4) : shown memory pieces = pieces.map leValue := by
  induction pieces generalizing memory with
  | nil => rfl
  | cons piece rest ih =>
    have four : piece.length = 4 := whole piece List.mem_cons_self
    have cells : (overwrite memory piece).toList = piece ++ List.replicate 4 0 := by
      rw [overwrite_toList memory (by omega), four, clear]
    have next : (overwrite memory piece).toList.drop 4 = List.replicate 4 0 := by
      rw [cells, ← four, List.drop_left]
    have later := ih next (fun other member => whole other (List.mem_cons_of_mem piece member))
    rw [shown, later, cells, leValue_append_zeros, List.map_cons]

/-- A piece of more than four bytes that are not zero is shown as no word. -/
theorem shown_long (memory : Vector UInt8 8) {count : Nat} (long : 4 < count) :
    2 ^ 32 ≤ leValue (overwrite memory (List.replicate count 1)).toList := by
  have cells : (overwrite memory (List.replicate count 1)).toList =
      List.replicate 4 1 ++ 1 :: (List.replicate (min count 8 - 5) 1 ++
        memory.toList.drop count) := by
    have length : min 8 count = 4 + (1 + (min count 8 - 5)) := by omega
    simp only [overwrite, Vector.toList_mk, List.take_replicate, length, List.length_replicate]
    rw [List.replicate_add, List.replicate_add, List.append_assoc, List.append_assoc]
    rfl
  have weight : 2 ^ 32 = 256 ^ (List.replicate 4 (1 : UInt8)).length := by decide
  rw [cells, weight]
  exact le_leValue_of_nonzero (by decide)

/-- A piece of more than four bytes shows. -/
theorem long_shown (memory : Vector UInt8 8) {pieces : List (List UInt8)} {piece : List UInt8}
    (member : piece ∈ pieces) (long : 4 < piece.length) :
    ∃ value ∈ shown memory (pieces.map maskBytes),
      2 ^ 32 ≤ value := by
  induction pieces generalizing memory with
  | nil => exact absurd member List.not_mem_nil
  | cons first rest ih =>
    rcases List.mem_cons.mp member with rfl | later
    · exact ⟨_, List.mem_cons_self, shown_long memory long⟩
    · obtain ⟨value, inside, large⟩ := ih (overwrite memory (maskBytes first)) later
      exact ⟨value, List.mem_cons_of_mem _ inside, large⟩

/-- Pieces of ones are ones. -/
theorem flatten_ones (pieces : List (List UInt8)) :
    (pieces.map maskBytes).flatten =
      List.replicate pieces.flatten.length 1 := by
  induction pieces with
  | nil => rfl
  | cons piece rest ih =>
    rw [List.map_cons, List.flatten_cons, ih, List.flatten_cons, List.length_append,
      List.replicate_add, maskBytes]

/-- Pieces of at most four bytes are no longer than as many words, and are as long only when
each is a word. -/
theorem short_pieces {pieces : List (List UInt8)} (short : ∀ piece ∈ pieces, piece.length ≤ 4) :
    pieces.flatten.length ≤ pieces.length * 4 ∧
      (pieces.flatten.length = pieces.length * 4 → ∀ piece ∈ pieces, piece.length = 4) := by
  induction pieces with
  | nil => simp
  | cons piece rest ih =>
    have first : piece.length ≤ 4 := short piece List.mem_cons_self
    obtain ⟨most, whole⟩ :=
      ih (fun other member => short other (List.mem_cons_of_mem piece member))
    rw [List.flatten_cons, List.length_append, List.length_cons]
    refine ⟨by omega, ?_⟩
    intro total
    have four : piece.length = 4 := by omega
    have later := whole (by omega)
    simpa [four] using later

/-- What the host does on some iterations, with `quiet` equal to 0. -/
def output (beginTime : Int) (polls : List Poll) : List Effect :=
  effects (trace (DatapathTask.step 0) (DatapathTask.start beginTime) polls)

/-- The host shows the words: whatever words a device puts with none of its puts refused,
when they reach the host in the pieces of some iterations, the host prints and logs these
words. -/
def Faithful (beginTime : Int) (polls : List Poll) : Prop :=
  ∀ (P : Firmware.Platform) (d : Firmware.Device P) (words : List CInt)
    (events : List Firmware.Event),
    events.filter Words.isPut = words.flatMap Words.putwordCalls →
    (∀ effect ∈ effects (trace Firmware.step (Firmware.vcomInit d) events),
      effect.refused = false) →
    ∀ actual : List Poll, actual.map mask = polls.map mask →
      (reads (output beginTime actual)).flatten =
        (Firmware.payloads (effects (trace Firmware.step (Firmware.vcomInit d) events))).flatten ++
          P.fifo.items (exec Firmware.step (Firmware.vcomInit d) events).txfifo →
      printed (output beginTime actual) = words.map BitVec.toNat ∧
        logged (output beginTime actual) = words.map BitVec.toNat

/-- Runs in the same pieces have reads of the same lengths. -/
theorem reads_mask (beginTime : Int) (polls : List Poll) :
    reads (output beginTime (polls.map mask)) =
      (reads (output beginTime polls)).map maskBytes :=
  run_mask 0 (DatapathTask.start beginTime) (DatapathTask.start beginTime).valueSerial polls

/-- Pieces that are whole words are shown as the words. -/
theorem words_shown {words : List CInt} {pieces : List (List UInt8)}
    (whole : ∀ piece ∈ pieces, piece.length = 4)
    (bytes : pieces.flatten = (words.map Firmware.wordBytes).flatten) :
    shown (Vector.replicate 8 0) pieces = words.map BitVec.toNat := by
  have cut := groups_flatten (by decide) whole
  rw [bytes, Words.groups_words] at cut
  rw [shown_whole (by decide) whole, ← cut, List.map_map]
  exact List.map_congr_left (fun word _ => Firmware.leValue_wordBytes word)

/-- Two runs in the same pieces read whole words together. -/
theorem whole_of_mask {beginTime : Int} {polls actual : List Poll}
    (same : actual.map mask = polls.map mask)
    (whole : ∀ piece ∈ reads (output beginTime polls), piece.length = 4) :
    ∀ piece ∈ reads (output beginTime actual), piece.length = 4 := by
  intro piece member
  have ones := reads_mask beginTime actual
  rw [same, reads_mask beginTime polls] at ones
  have masked : maskBytes piece ∈ (reads (output beginTime actual)).map maskBytes :=
    List.mem_map.mpr ⟨piece, member, rfl⟩
  rw [← ones] at masked
  obtain ⟨other, inside, equal⟩ := List.mem_map.mp masked
  have lengths := congrArg List.length equal
  rw [maskBytes_length, maskBytes_length, whole other inside] at lengths
  exact lengths.symm

/-- When each read has returned a whole word, the host shows the words. -/
theorem faithful_of_whole_reads {beginTime : Int} {polls : List Poll}
    (whole : ∀ piece ∈ reads (output beginTime polls), piece.length = 4) :
    Faithful beginTime polls := by
  intro P d words events calls taken actual same received
  rw [Words.run_stream d calls taken] at received
  obtain ⟨prints, logs⟩ := run_shows rfl (DatapathTask.start beginTime) actual
  have shows := words_shown (whole_of_mask same whole) received
  exact ⟨prints.trans shows, logs.trans shows⟩

/-- A word whose bytes are all 1. -/
def ones : CInt := 0x01010101

/-- A device sends any number of such words when its queue is large enough. -/
theorem ones_sent (count : Nat) :
    ∃ (P : Firmware.Platform) (d : Firmware.Device P) (events : List Firmware.Event),
      events.filter Words.isPut = (List.replicate count ones).flatMap Words.putwordCalls ∧
      (∀ effect ∈ effects (trace Firmware.step (Firmware.vcomInit d) events),
        effect.refused = false) ∧
      (Firmware.payloads (effects (trace Firmware.step (Firmware.vcomInit d) events))).flatten ++
          P.fifo.items (exec Firmware.step (Firmware.vcomInit d) events).txfifo =
        List.replicate (count * 4) 1 := by
  let d := Firmware.Device.blank (count * 4)
  let events := (List.replicate count ones).flatMap Words.putwordCalls
  have puts : ∀ event ∈ events, Words.isPut event := by
    intro event member
    obtain ⟨word, _, call⟩ := List.mem_flatMap.mp member
    obtain ⟨place, _, rfl⟩ := List.mem_map.mp call
    rfl
  have calls : events.filter Words.isPut = events := List.filter_eq_self.mpr puts
  have room : ((Firmware.Platform.ofList (count * 4)).fifo.items
      (Firmware.vcomInit d).txfifo).length + events.length ≤
        (Firmware.Platform.ofList (count * 4)).fifo.capacity := by
    have length : events.length = count * 4 := by
      simp [events, List.length_flatMap, Words.putwordCalls]
    rw [length, show (Firmware.vcomInit d).txfifo = Fifo.empty UInt8 (count * 4) from rfl]
    exact (Nat.zero_add _).le
  have taken := Words.run_taken (Firmware.vcomInit d) puts room
  refine ⟨_, d, events, calls, taken, ?_⟩
  have bytes : Firmware.wordBytes ones = List.replicate 4 1 := by decide
  rw [Words.run_stream d calls taken, List.map_replicate, bytes, List.flatten_replicate_replicate]

/-- A host that shows the words in some pieces has read one whole word in each. -/
theorem whole_reads_of_faithful {beginTime : Int} {polls : List Poll}
    (whole : (reads (output beginTime polls)).flatten.length % 4 = 0)
    (faithful : Faithful beginTime polls) :
    ∀ piece ∈ reads (output beginTime polls), piece.length = 4 := by
  obtain ⟨P, d, events, calls, taken, stream⟩ :=
    ones_sent ((reads (output beginTime polls)).flatten.length / 4)
  have idempotent : (polls.map mask).map mask = polls.map mask := by
    rw [List.map_map]
    exact List.map_congr_left (fun poll _ => mask_mask poll)
  have total : (reads (output beginTime polls)).flatten.length / 4 * 4 =
      (reads (output beginTime polls)).flatten.length :=
    Nat.div_mul_cancel (Nat.dvd_of_mod_eq_zero whole)
  have received : (reads (output beginTime (polls.map mask))).flatten =
      List.replicate ((reads (output beginTime polls)).flatten.length / 4 * 4) 1 := by
    rw [reads_mask, flatten_ones, total]
  obtain ⟨prints, _⟩ := faithful P d _ events calls taken _ idempotent (received.trans stream.symm)
  obtain ⟨shows, _⟩ := run_shows rfl (DatapathTask.start beginTime) (polls.map mask)
  have equal := shows.symm.trans prints
  rw [show effects (trace (DatapathTask.step 0) (DatapathTask.start beginTime)
    (polls.map mask)) = output beginTime (polls.map mask) from rfl, reads_mask,
    List.map_replicate] at equal
  have count := congrArg List.length equal
  rw [shown_length, List.length_map, List.length_replicate] at count
  have short : ∀ piece ∈ reads (output beginTime polls), piece.length ≤ 4 := by
    intro piece member
    by_contra long
    obtain ⟨value, inside, large⟩ :=
      long_shown (DatapathTask.start beginTime).valueSerial member (Nat.lt_of_not_le long)
    rw [equal] at inside
    have small : value = ones.toNat := List.eq_of_mem_replicate inside
    have bound := ones.isLt
    omega
  apply (short_pieces short).2
  rw [count, total]

/-- The host shows the words that the device sends exactly when it reads word by word. For
iterations of the host whose reads return whole words in all, what is printed and logged is
the words, for all words that reach the host in these pieces, if and only if each read has
returned one whole word of four bytes. -/
theorem faithful_iff_whole_reads (beginTime : Int) (polls : List Poll)
    (whole : (reads (output beginTime polls)).flatten.length % 4 = 0) :
    Faithful beginTime polls ↔ ∀ piece ∈ reads (output beginTime polls), piece.length = 4 :=
  ⟨whole_reads_of_faithful whole, faithful_of_whole_reads⟩

/-- A read of two words at once. -/
def pairPolls : List Poll :=
  [{ stdin := .empty, flush := 0, now := 0,
     serial := .data [1, 0, 0, 0, 2, 0, 0, 0] (by decide) (by decide) }]

/-- The puts of the words 1 and 2. -/
def pairEvents : List Firmware.Event := Words.putwordCalls 1 ++ Words.putwordCalls 2

/-- The words 1 and 2, put with no put refused and returned by one read, are shown as one
number that is neither of them. -/
theorem pairPolls_merged :
    pairEvents.filter Words.isPut = ([1, 2] : List CInt).flatMap Words.putwordCalls ∧
      (∀ effect ∈ effects (trace Firmware.step (Firmware.vcomInit (Firmware.Device.blank 64))
        pairEvents), effect.refused = false) ∧
      (reads (output 0 pairPolls)).flatten =
        (Firmware.payloads (effects (trace Firmware.step
            (Firmware.vcomInit (Firmware.Device.blank 64)) pairEvents))).flatten ++
          (Firmware.Platform.ofList 64).fifo.items (exec Firmware.step
            (Firmware.vcomInit (Firmware.Device.blank 64)) pairEvents).txfifo ∧
      printed (output 0 pairPolls) = [0x200000001] ∧
      printed (output 0 pairPolls) ≠ ([1, 2] : List CInt).map BitVec.toNat :=
  ⟨rfl, by decide, by decide, by decide, by decide⟩

/-- The same read, whose length is not that of a word. -/
theorem faithful_iff_whole_reads_pairPolls :
    Faithful 0 pairPolls ↔ ∀ piece ∈ reads (output 0 pairPolls), piece.length = 4 :=
  faithful_iff_whole_reads 0 pairPolls (by decide)

end Olimex2378.Verif.HostWords
