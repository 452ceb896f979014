import Olimex2378.Verif.Transmit

/-!
# Words through the transmitter

The stream of bytes for the host has no record marks: packets cut it wherever an interrupt
falls. Reading it in groups of four gives back the words put, as long as every byte of them
was taken, because what the transmitter does to the bytes does not depend on where the cuts
are.
-/

namespace Olimex2378.Verif.Words

open Firmware Run Bytes

variable {P : Platform}

/-- The calls of `fifo_put` that `VCOM_putword(c)` makes when none is refused. -/
def putwordCalls (c : CInt) : List Event := (List.finRange 4).map (Event.putwordByte c)

/-- The byte that a call puts for the host. -/
def putByte : Event → Option UInt8
  | .putchar c => some (toByte c)
  | .putwordByte c place => some (toByte (putwordArg c place))
  | _ => none

/-- A call that puts a byte for the host. -/
def isPut (event : Event) : Bool := (putByte event).isSome

/-- Four bytes read as a little-endian number in two's complement. -/
def readWord (group : List UInt8) : Int := (BitVec.ofNat 32 (leValue group)).toInt

/-- The bytes of a word read back as the word, negative or not. -/
theorem readWord_wordBytes (c : CInt) : readWord (wordBytes c) = c.toInt := by
  rw [readWord, leValue_wordBytes, BitVec.ofNat_toNat, BitVec.setWidth_eq]

/-- The puts of some words put the bytes of the words. -/
theorem putwordCalls_bytes (words : List CInt) :
    (words.flatMap putwordCalls).filterMap putByte = (words.map wordBytes).flatten := by
  induction words with
  | nil => rfl
  | cons word rest ih =>
    rw [List.flatMap_cons, List.filterMap_append, ih, List.map_cons, List.flatten_cons]
    rfl

/-- Only the puts of a run matter for the bytes they put. -/
theorem filterMap_putByte (events : List Event) :
    events.filterMap putByte = (events.filter isPut).filterMap putByte := by
  induction events with
  | nil => rfl
  | cons event rest ih =>
    cases put : putByte event with
    | none => simp [isPut, put, ih]
    | some byte => simp [isPut, put, ih]

/-- A call that is refused no put accepts what it puts. -/
theorem step_accepts (d : Device P) (event : Event)
    (taken : ∀ effect ∈ (step d event).2, effect.refused = false) :
    accepted (step d event).2 = (putByte event).toList := by
  have put : ∀ c : CInt, (Effect.txPut (toByte c) (putTx d c).2).refused = false →
      accepted [Effect.txPut (toByte c) (putTx d c).2] = [toByte c] := by
    intro c notRefused
    cases result : (putTx d c).2 with
    | false => simp [result, Effect.refused] at notRefused
    | true => rfl
  cases event with
  | putchar c => exact put c (taken _ List.mem_cons_self)
  | putwordByte c place => exact put (putwordArg c place) (taken _ List.mem_cons_self)
  | getchar => rfl
  | irq source => exact (isr_no_port d source).1

/-- A run that is refused no put accepts the bytes of its puts, in order. -/
theorem run_accepts (d : Device P) (events : List Event)
    (taken : ∀ effect ∈ effects (trace step d events), effect.refused = false) :
    accepted (effects (trace step d events)) = events.filterMap putByte := by
  induction events generalizing d with
  | nil => rfl
  | cons event rest ih =>
    rw [trace_cons, effects_cons, List.forall_mem_append] at taken
    have first := step_accepts d event taken.1
    have later := ih (step d event).1 taken.2
    rw [trace_cons, effects_cons, accepted_append, first, later]
    cases put : putByte event <;> simp [put]

/-- When the puts of a run from `VCOM_init` are those of `VCOM_putword` on a list of words,
none of them refused, the stream for the host is the bytes of the words. -/
theorem run_stream (d : Device P) {words : List CInt} {events : List Event}
    (calls : events.filter isPut = words.flatMap putwordCalls)
    (taken : ∀ effect ∈ effects (trace step (vcomInit d) events), effect.refused = false) :
    (payloads (effects (trace step (vcomInit d) events))).flatten ++
        P.fifo.items (exec step (vcomInit d) events).txfifo =
      (words.map wordBytes).flatten := by
  have stream := Transmit.run_conserves (vcomInit d) events
  rw [vcomInit_txfifo, List.nil_append, run_accepts _ _ taken, filterMap_putByte, calls,
    putwordCalls_bytes] at stream
  exact stream

/-- Words joined as bytes are cut into their bytes again. -/
theorem groups_words (words : List CInt) :
    groups 4 (words.map wordBytes).flatten = words.map wordBytes := by
  apply groups_flatten (by decide)
  intro cell member
  obtain ⟨word, _, rfl⟩ := List.mem_map.mp member
  exact wordBytes_length word

/-- Puts for which `txfifo` has room are not refused. -/
theorem run_taken (d : Device P) {events : List Event} (puts : ∀ event ∈ events, isPut event)
    (room : (P.fifo.items d.txfifo).length + events.length ≤ P.fifo.capacity) :
    ∀ effect ∈ effects (trace step d events), effect.refused = false := by
  induction events generalizing d with
  | nil => simp
  | cons event rest ih =>
    rw [List.length_cons] at room
    have fits : (P.fifo.items d.txfifo).length < P.fifo.capacity := by omega
    have put : ∀ c : CInt, (putTx d c).2 = true ∧
        (P.fifo.items (putTx d c).1.txfifo).length = (P.fifo.items d.txfifo).length + 1 := by
      intro c
      obtain ⟨queue, device, items⟩ := putTx_eq d c
      have accepts := (putTx_taken d c).mpr fits
      rw [device, items, accepts]
      exact ⟨rfl, by simp⟩
    have later : ∀ c : CInt, ∀ effect ∈ effects (trace step (putTx d c).1 rest),
        effect.refused = false := by
      intro c
      apply ih
      · exact fun event member => puts event (List.mem_cons_of_mem _ member)
      · have grown := (put c).2
        omega
    rw [trace_cons, effects_cons, List.forall_mem_append]
    have isPutEvent := puts event List.mem_cons_self
    cases event with
    | putchar c => exact ⟨by simp [step, put c, Effect.refused], later c⟩
    | putwordByte c place =>
      exact ⟨by simp [step, put, Effect.refused], later (putwordArg c place)⟩
    | getchar => exact absurd isPutEvent (by decide)
    | irq source => exact absurd isPutEvent (by simp [isPut, putByte])

/-- Words go through the transmitter unharmed. When the puts of a run from `VCOM_init` are
those of `VCOM_putword` on a list of words, one after another and none refused, then the
stream to the host, wherever interrupts have cut it, reads back in groups of four as the
words. -/
theorem words_round_trip (d : Device P) (words : List CInt) (events : List Event)
    (calls : events.filter isPut = words.flatMap putwordCalls)
    (taken : ∀ effect ∈ effects (trace step (vcomInit d) events), effect.refused = false) :
    (groups 4 ((payloads (effects (trace step (vcomInit d) events))).flatten ++
        P.fifo.items (exec step (vcomInit d) events).txfifo)).map readWord =
      words.map BitVec.toInt := by
  rw [run_stream d calls taken, groups_words, List.map_map]
  apply List.map_congr_left
  intro word _
  rw [Function.comp_apply, readWord_wordBytes]

/-- The words of the round trip below. -/
def sampleWords : List CInt := [-1, 0x80000000, 0x12345678]

/-- A run that sends them with an interrupt inside the second word and one after it. -/
def sampleRun : List Event :=
  putwordCalls (-1) ++
    ((putwordCalls 0x80000000).take 1 ++ .irq .frame :: (putwordCalls 0x80000000).drop 1) ++
    .irq .bulkIn :: putwordCalls 0x12345678 ++ [.irq .frame]

/-- The round trip of a negative word, the smallest word and a word of four different bytes. -/
theorem words_round_trip_sample :
    (groups 4 ((payloads (effects (trace step (vcomInit (Device.blank 64)) sampleRun))).flatten ++
        (Platform.ofList 64).fifo.items
          (exec step (vcomInit (Device.blank 64)) sampleRun).txfifo)).map readWord =
      sampleWords.map BitVec.toInt :=
  words_round_trip (Device.blank 64) sampleWords sampleRun rfl (by decide +kernel)

end Olimex2378.Verif.Words
