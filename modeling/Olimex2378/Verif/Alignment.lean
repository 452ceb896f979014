import Olimex2378.Firmware.Sampler
import Olimex2378.Verif.Transmit
import Olimex2378.Verif.Receive

/-!
# Whole words

Whether the stream of the sampler consists of whole words. A word's four puts are separate
and the transmitter takes what it finds between them, so `txfifo` can have room for any
number of a word's bytes; `VCOM_putword` stops at the first that is refused, keeps those
before it, and reports nothing. The stream loses its alignment exactly there.
-/

namespace Olimex2378.Verif.Alignment

open Firmware Run

variable {P : Platform}

/-- The bytes for the host, from the first one handed over to the last one waiting. -/
def stream (s : Sampler P) (history : List (SamplerEvent × List Effect)) : List UInt8 :=
  (payloads (effects history)).flatten ++ P.fifo.items s.device.txfifo

/-- The stream consists of words passed to `VCOM_putword`, each whole and in order. -/
def Whole (s : Sampler P) (history : List (SamplerEvent × List Effect)) : Prop :=
  ∃ kept : List CInt, kept.Sublist (passed (effects history)) ∧
    stream s history = kept.flatMap wordBytes

/-- Whole words are a multiple of four bytes. -/
theorem wholeWords_length (words : List CInt) :
    (words.flatMap wordBytes).length = words.length * 4 := by
  have whole : ∀ cell ∈ words.map wordBytes, cell.length = 4 := by
    intro cell member
    obtain ⟨word, _, rfl⟩ := List.mem_map.mp member
    exact wordBytes_length word
  rw [List.flatMap_def, Bytes.length_flatten_of_whole whole, List.length_map]

/-- A stream of whole words is a multiple of four bytes. -/
theorem Whole.length {s : Sampler P} {history : List (SamplerEvent × List Effect)}
    (whole : Whole s history) : (stream s history).length % 4 = 0 := by
  obtain ⟨kept, _, words⟩ := whole
  rw [words, wholeWords_length]
  omega

/-- A step adds to the stream the bytes that `txfifo` takes in it. -/
theorem stream_step (s : Sampler P) (history : List (SamplerEvent × List Effect))
    (event : SamplerEvent) :
    stream (s.step event).1 (history ++ [(event, (s.step event).2)]) =
      stream s history ++ accepted (s.step event).2 := by
  have account : (payloads (s.step event).2).flatten ++
      P.fifo.items (s.step event).1.device.txfifo =
        P.fifo.items s.device.txfifo ++ accepted (s.step event).2 := by
    cases event with
    | irq source =>
      have conserves := Transmit.isr_conserves s.device source
      have silent := (isr_no_port s.device source).1
      simp only [Sampler.step]
      rw [conserves, silent, List.append_nil]
    | main =>
      simp only [Sampler.step]
      cases atPoint : s.point with
      | top =>
        rcases main_top atPoint with ⟨c, _, result⟩ | ⟨_, result⟩
        · rw [result]
          exact (List.append_nil _).symm
        · rw [result]
          exact (List.append_nil _).symm
      | putword c place =>
        rw [main_put atPoint]
        exact Transmit.step_conserves s.device (.putwordByte c place)
      | poll =>
        obtain ⟨point, result, _⟩ := main_poll atPoint
        rw [result]
        exact Transmit.step_conserves s.device .getchar
      | echo c =>
        rw [main_echo atPoint]
        exact Transmit.step_conserves s.device (.putchar c)
  unfold stream
  simp only [effects_snoc, payloads_append,
    List.flatten_append]
  rw [List.append_assoc, account, List.append_assoc]

/-- The sampler has received nothing but commands and has no character to send back. -/
structure Commanded (s : Sampler P) : Prop where
  /-- Only commands wait. -/
  waiting : ∀ byte ∈ P.fifo.items s.device.rxfifo, byte ∈ commandBytes
  /-- The loop is not about to send a character back. -/
  noEcho : ∀ c, s.point ≠ .echo c

/-- A command is not sent back. -/
theorem command_silent (t : StreamTask) {byte : UInt8} (isCommand : byte ∈ commandBytes) :
    (t.command (ofByte byte)).2 = none := by
  simp only [commandBytes, List.mem_cons, List.not_mem_nil, or_false] at isCommand
  rcases isCommand with rfl | rfl | rfl | rfl <;> rfl

/-- A poll takes a command or nothing, and finds nothing to send back. -/
theorem commanded_poll {s : Sampler P} (commanded : Commanded s) (atPoll : s.point = .poll) :
    Commanded s.main.1 ∧ s.main.1.point = .top := by
  obtain ⟨point, result, next⟩ := main_poll atPoll
  rw [result]
  cases received : P.fifo.items s.device.rxfifo with
  | nil =>
    rw [vcomGetchar_empty received] at next ⊢
    have top : point = .top := next
    exact ⟨⟨commanded.waiting, by simp [top]⟩, top⟩
  | cons byte rest =>
    obtain ⟨queue, taken, items⟩ := vcomGetchar_takes received
    have waiting := commanded.waiting
    rw [received] at waiting
    rw [taken, command_silent s.task (waiting byte List.mem_cons_self)] at next
    have top : point = .top := next
    rw [taken]
    refine ⟨⟨?_, by simp [top]⟩, top⟩
    simp only [items]
    exact fun other member => waiting other (List.mem_cons_of_mem byte member)

/-- Every step of an admitted run keeps to commands. -/
theorem commanded_step (counted : P.fifo.Counted) {s : Sampler P} (commanded : Commanded s)
    {event : SamplerEvent} (admits : s.Admits event) : Commanded (s.step event).1 := by
  cases event with
  | irq source =>
    refine ⟨?_, commanded.noEcho⟩
    intro byte member
    have received := (Receive.isr_receives counted s.device source).1
    simp only [Sampler.step] at member
    rw [received, List.mem_append] at member
    rcases member with waiting | read
    · exact commanded.waiting byte waiting
    · obtain ⟨packet, rfl, inPacket⟩ := isr_packets read
      exact admits byte inPacket
  | main =>
    simp only [Sampler.step]
    cases atPoint : s.point with
    | top =>
      rcases main_top atPoint with ⟨c, _, result⟩ | ⟨_, result⟩
      · rw [result]
        exact ⟨commanded.waiting, by simp⟩
      · rw [result]
        exact ⟨commanded.waiting, by simp⟩
    | putword c place =>
      rw [main_put atPoint]
      have same := (Receive.step_receives counted s.device (.putwordByte c place)).1
      simp only [step, shows_put, List.flatten_nil, List.nil_append,
        List.append_nil] at same
      constructor
      · simp only [step]
        rw [same]
        exact commanded.waiting
      · intro other echo
        have inside := afterPut_inside c place (putTx s.device (putwordArg c place)).2
        simp only at echo
        simp [echo, Point.InWord] at inside
    | poll => exact (commanded_poll commanded atPoint).1
    | echo c => exact absurd atPoint (commanded.noEcho c)

/-- The word that is being put. -/
def current : Point → List CInt
  | .putword c _ => [c]
  | _ => []

/-- The bytes of it that have been put. -/
def begun : Point → List UInt8
  | .putword c place => (wordBytes c).take place.val
  | _ => []

/-- The stream consists of whole words and the front of the word that is being put. -/
def Aligned (s : Sampler P) (history : List (SamplerEvent × List Effect)) : Prop :=
  ∃ earlier kept : List CInt, passed (effects history) = earlier ++ current s.point ∧
    kept.Sublist earlier ∧ stream s history = kept.flatMap wordBytes ++ begun s.point

/-- Between words an aligned stream is whole. -/
theorem Aligned.whole {s : Sampler P} {history : List (SamplerEvent × List Effect)}
    (aligned : Aligned s history) (between : ¬ s.point.InWord) : Whole s history := by
  obtain ⟨earlier, kept, words, sub, bytes⟩ := aligned
  have nothing : current s.point = [] ∧ begun s.point = [] := by
    generalize s.point = point at between
    cases point with
    | putword c place => exact absurd trivial between
    | _ => exact ⟨rfl, rfl⟩
  rw [nothing.1, List.append_nil] at words
  rw [nothing.2, List.append_nil] at bytes
  exact ⟨kept, words ▸ sub, bytes⟩

/-- A byte taken completes the word or leaves a longer front of it. -/
theorem begun_taken (c : CInt) (place : Fin 4) :
    ∃ done : List CInt, [c] = done ++ current (afterPut c place true) ∧
      (wordBytes c).take place.val ++ [toByte (putwordArg c place)] =
        done.flatMap wordBytes ++ begun (afterPut c place true) := by
  fin_cases place
  · exact ⟨[], rfl, rfl⟩
  · exact ⟨[], rfl, rfl⟩
  · exact ⟨[], rfl, rfl⟩
  · exact ⟨[c], rfl, rfl⟩

/-- A step that adds nothing to the stream and passes no word leaves it aligned. -/
theorem aligned_quiet {s : Sampler P} {history : List (SamplerEvent × List Effect)}
    (aligned : Aligned s history) {event : SamplerEvent}
    (silent : accepted (s.step event).2 = []) (noWord : passed (s.step event).2 = [])
    (same : current (s.step event).1.point = current s.point ∧
      begun (s.step event).1.point = begun s.point) :
    Aligned (s.step event).1 (history ++ [(event, (s.step event).2)]) := by
  obtain ⟨earlier, kept, words, sub, bytes⟩ := aligned
  refine ⟨earlier, kept, ?_, sub, ?_⟩
  · simp [words, noWord, same.1]
  · rw [stream_step, silent, List.append_nil, same.2, bytes]

/-- The switch statement adds nothing to the stream; a word that it passes is then to be put
from its first byte. -/
theorem step_top {s : Sampler P} (atTop : s.point = .top) :
    accepted (s.step .main).2 = [] ∧
      passed (s.step .main).2 = current (s.step .main).1.point ∧
      begun (s.step .main).1.point = [] := by
  simp only [Sampler.step]
  rcases main_top atTop with ⟨c, _, result⟩ | ⟨_, result⟩
  · rw [result]
    exact ⟨rfl, rfl, rfl⟩
  · rw [result]
    exact ⟨rfl, rfl, rfl⟩

/-- The switch statement leaves an aligned stream aligned. -/
theorem aligned_top {s : Sampler P} {history : List (SamplerEvent × List Effect)}
    (aligned : Aligned s history) (atTop : s.point = .top) :
    Aligned (s.step .main).1 (history ++ [(.main, (s.step .main).2)]) := by
  obtain ⟨earlier, kept, words, sub, bytes⟩ := aligned
  obtain ⟨silent, begins, front⟩ := step_top atTop
  rw [atTop] at words bytes
  refine ⟨earlier, kept, ?_, sub, ?_⟩
  · simp [words, begins, current]
  · rw [stream_step, silent, front, bytes]
    exact List.append_nil _

/-- What a put of a word does to the sampler and the stream. -/
theorem step_put {s : Sampler P} {c : CInt} {place : Fin 4} (atPut : s.point = .putword c place) :
    (s.step .main).1.point = afterPut c place (putTx s.device (putwordArg c place)).2 ∧
      passed (s.step .main).2 = [] ∧
      accepted (s.step .main).2 = if (putTx s.device (putwordArg c place)).2 then
        [toByte (putwordArg c place)] else [] := by
  simp only [Sampler.step]
  rw [main_put atPut]
  refine ⟨rfl, rfl, ?_⟩
  simp only [step]
  cases (putTx s.device (putwordArg c place)).2 <;> rfl

/-- A put of an aligned word for which there is room, or of its first byte, leaves the stream
aligned. -/
theorem aligned_put {s : Sampler P} {history : List (SamplerEvent × List Effect)}
    (aligned : Aligned s history) {c : CInt} {place : Fin 4} (atPut : s.point = .putword c place)
    (roomy : place ≠ firstPlace → (P.fifo.items s.device.txfifo).length < P.fifo.capacity) :
    Aligned (s.step .main).1 (history ++ [(.main, (s.step .main).2)]) := by
  obtain ⟨earlier, kept, words, sub, bytes⟩ := aligned
  obtain ⟨point, noWord, adds⟩ := step_put atPut
  rw [atPut] at words bytes
  have total : passed (effects (history ++ [(SamplerEvent.main, (s.step .main).2)])) =
      earlier ++ [c] := by
    simp [words, noWord, current]
  unfold Aligned
  rw [stream_step, total, point, adds, bytes]
  cases taken : (putTx s.device (putwordArg c place)).2 with
  | true =>
    obtain ⟨done, whole, front⟩ := begun_taken c place
    refine ⟨earlier ++ done, kept ++ done, ?_, sub.append_right done, ?_⟩
    · rw [whole, List.append_assoc]
    · rw [List.flatMap_append, List.append_assoc, List.append_assoc, ← front]
      rfl
  | false =>
    have first : place = firstPlace := by
      by_contra later
      have room := (putTx_taken s.device (putwordArg c place)).mpr (roomy later)
      rw [taken] at room
      contradiction
    subst first
    refine ⟨earlier ++ [c], kept, ?_, sub.trans (List.sublist_append_left earlier [c]), ?_⟩
    · simp [current]
    · simp [begun, firstPlace]

/-- A poll of an aligned stream leaves it aligned. -/
theorem aligned_poll {s : Sampler P} {history : List (SamplerEvent × List Effect)}
    (commanded : Commanded s) (aligned : Aligned s history) (atPoll : s.point = .poll) :
    Aligned (s.step .main).1 (history ++ [(.main, (s.step .main).2)]) := by
  have top : (s.step .main).1.point = .top := (commanded_poll commanded atPoll).2
  have out : (s.step .main).2 = [.getchar (vcomGetchar s.device).2] := by
    obtain ⟨point, result, _⟩ := main_poll atPoll
    simp only [Sampler.step]
    rw [result]
  apply aligned_quiet aligned
  · rw [out]
    rfl
  · rw [out]
    rfl
  · rw [top, atPoll]
    exact ⟨rfl, rfl⟩

/-- Every step of an admitted run that meets the condition leaves the stream aligned. -/
theorem aligned_step {s : Sampler P} {history : List (SamplerEvent × List Effect)}
    (commanded : Commanded s) (aligned : Aligned s history) {event : SamplerEvent}
    (roomy : s.Roomy event) :
    Aligned (s.step event).1 (history ++ [(event, (s.step event).2)]) := by
  cases event with
  | irq source =>
    obtain ⟨silent, noWord, _, _⟩ := isr_no_port s.device source
    exact aligned_quiet aligned silent noWord ⟨rfl, rfl⟩
  | main =>
    cases atPoint : s.point with
    | top => exact aligned_top aligned atPoint
    | putword c place =>
      simp only [Sampler.Roomy, atPoint] at roomy
      exact aligned_put aligned atPoint roomy
    | poll => exact aligned_poll commanded aligned atPoint
    | echo c => exact absurd atPoint (commanded.noEcho c)

/-- A put in the middle of a word that finds `txfifo` full leaves a part of the word behind. -/
theorem torn_put {s : Sampler P} {history : List (SamplerEvent × List Effect)}
    (aligned : Aligned s history) {event : SamplerEvent} (full : ¬ s.Roomy event) :
    ¬ (s.step event).1.point.InWord ∧
      ¬ Whole (s.step event).1 (history ++ [(event, (s.step event).2)]) := by
  cases event with
  | irq source => exact absurd trivial full
  | main =>
    cases atPoint : s.point with
    | putword c place =>
      simp only [Sampler.Roomy, atPoint, Classical.not_imp] at full
      obtain ⟨later, noRoom⟩ := full
      obtain ⟨point, _, adds⟩ := step_put atPoint
      have refused : (putTx s.device (putwordArg c place)).2 = false := by
        rw [← Bool.not_eq_true, putTx_taken]
        exact noRoom
      rw [refused] at point adds
      refine ⟨by rw [point, afterPut_refused]; exact id, ?_⟩
      intro whole
      obtain ⟨earlier, kept, _, _, bytes⟩ := aligned
      have length := whole.length
      have some : place.val ≠ 0 := fun zero => later (Fin.ext zero)
      have front : ((wordBytes c).take place.val).length = place.val := by
        rw [List.length_take, wordBytes_length]
        omega
      rw [stream_step, adds, bytes, atPoint] at length
      simp only [begun, List.length_append, wholeWords_length, front, Bool.false_eq_true,
        if_false, List.length_nil] at length
      omega
    | _ => exact absurd (by simp [Sampler.Roomy, atPoint]) full

/-- The sampler starts with nothing sent and nothing received. -/
theorem aligned_start (d : Device P) :
    Commanded (Sampler.start d) ∧ Aligned (Sampler.start d) [] := by
  refine ⟨⟨?_, by simp [Sampler.start]⟩, [], [], rfl, List.Sublist.refl [], ?_⟩
  · simp [Sampler.start]
  · simp [stream, Sampler.start, begun]

/-- An admitted run whose puts inside words all find room leaves the stream aligned. -/
theorem aligned_run (counted : P.fifo.Counted) (d : Device P) {events : List SamplerEvent}
    (admitted : Along Sampler.step Sampler.Admits (Sampler.start d) events)
    (roomy : Along Sampler.step Sampler.Roomy (Sampler.start d) events) :
    Aligned (exec Sampler.step (Sampler.start d) events)
      (trace Sampler.step (Sampler.start d) events) := by
  have both : Along Sampler.step (fun s event => s.Admits event ∧ s.Roomy event)
      (Sampler.start d) events := admitted.and roomy
  have run := invariant (fun s history => Commanded s ∧ Aligned s history) (aligned_start d)
    (fun s history event held met =>
      ⟨commanded_step counted held.1 met.1, aligned_step held.1 held.2 met.2⟩) both
  exact run.2

/-- Words are torn exactly when `txfifo` fills inside one. In a run from the start of
`stream_task` in which only commands are received, the stream for the host consists, at every
moment between two words, of whole words passed to `VCOM_putword` in their order, if and only
if no put after the first of a word has found `txfifo` full. -/
theorem whole_iff_roomy (counted : P.fifo.Counted) (d : Device P) (events : List SamplerEvent)
    (admitted : Along Sampler.step Sampler.Admits (Sampler.start d) events) :
    (∀ before after, events = before ++ after →
      ¬ (exec Sampler.step (Sampler.start d) before).point.InWord →
      Whole (exec Sampler.step (Sampler.start d) before)
        (trace Sampler.step (Sampler.start d) before)) ↔
    Along Sampler.step Sampler.Roomy (Sampler.start d) events := by
  constructor
  · intro whole
    rcases along_or_refused Sampler.step Sampler.Roomy (Sampler.start d) events with
      roomy | ⟨before, event, after, rfl, roomy, full⟩
    · exact roomy
    · have aligned := aligned_run counted d ((along_append ..).mp admitted).1 roomy
      obtain ⟨between, torn⟩ := torn_put aligned full
      have moment := whole (before ++ [event]) after (by simp)
      rw [exec_append, trace_append] at moment
      exact absurd (moment between) torn
  · rintro roomy before after rfl between
    rw [along_append] at admitted roomy
    exact (aligned_run counted d admitted.1 roomy.1).whole between

/-- A host that sends `g` and reads nothing, until the seventeenth word has been put. -/
def tornRun : List SamplerEvent :=
  .irq (.bulkOut (some ⟨['g'.toUInt8], by decide⟩)) :: List.replicate 101 .main

/-- With queues of 65 bytes the seventeenth word of this run is torn: its first byte is taken,
the second refused. -/
theorem tornRun_tears :
    Along Sampler.step Sampler.Admits (Sampler.start (Device.blank 65)) tornRun ∧
      ¬ (exec Sampler.step (Sampler.start (Device.blank 65)) tornRun).point.InWord ∧
      ¬ Whole (exec Sampler.step (Sampler.start (Device.blank 65)) tornRun)
        (trace Sampler.step (Sampler.start (Device.blank 65)) tornRun) := by
  have odd : (stream (exec Sampler.step (Sampler.start (Device.blank 65)) tornRun)
      (trace Sampler.step (Sampler.start (Device.blank 65)) tornRun)).length % 4 = 1 := by
    decide +kernel
  refine ⟨by decide +kernel, by decide +kernel, ?_⟩
  intro whole
  have length := whole.length
  omega

/-- The same run seen from its puts. -/
theorem whole_iff_roomy_tornRun :
    (∀ before after, tornRun = before ++ after →
      ¬ (exec Sampler.step (Sampler.start (Device.blank 65)) before).point.InWord →
      Whole (exec Sampler.step (Sampler.start (Device.blank 65)) before)
        (trace Sampler.step (Sampler.start (Device.blank 65)) before)) ↔
    Along Sampler.step Sampler.Roomy (Sampler.start (Device.blank 65)) tornRun :=
  whole_iff_roomy (Fifo.ofList_counted UInt8 65) (Device.blank 65) tornRun (by decide +kernel)

end Olimex2378.Verif.Alignment
